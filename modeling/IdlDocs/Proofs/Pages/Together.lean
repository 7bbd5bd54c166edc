import IdlDocs.Proofs.Description.Ends
import IdlDocs.Proofs.Pages.Records

/-!
# All pages of an interface

When all pages of an interface are generated, its group is looked up once and stands in the
request of each page, and what has been loaded for one page is there for the next one.  When
a page is generated alone, all of this is done anew.

* `answerAt_generate_pinned`: **the group that has been looked up may stand in the
  request**, without a change of its page.
* `foundAt_generateSubPages`: the other pages, each as it is alone.
* `answerAt_generateAll`: **the overview and the other pages**, each as it is alone.
-/

namespace IdlDocs

open Templates

variable (l : Library) (r : Registry) {e : Engine} (renderer : Renderer e) (extension : String)

/-! ## The group -/

/-- A group that has been looked up is found again in its place. -/
theorem outcomeAt_groupName_pinned {p : Request} {group : Option String}
    (h : outcomeAt l r (groupName p) = .ok group) :
    outcomeAt l r (groupName { p with group }) = .ok group := by
  cases group with
  | some name => rfl
  | none =>
    unfold groupName at h ⊢
    cases hg : p.group with
    | some name => rw [hg] at h; cases h
    | none => rw [hg] at h; exact h

theorem answerAt_generate (p : Request) :
    answerAt l r (generate renderer p) =
      andThen (answerAt l r (assemble p)) fun page => some (renderPage renderer page) :=
  (Ends.assemble p).answerAt_bind fun page => .answer (renderPage renderer page)

/-- The record names the group of the request, and shows no more of it. -/
theorem assembleIn_group (p : Request) (group other : Option String) :
    assembleIn { p with group } other = assembleIn p other := rfl

/-- **The group that has been looked up may stand in the request.** -/
theorem answerAt_generate_pinned {p : Request} {group : Option String}
    (h : outcomeAt l r (groupName p) = .ok group) :
    answerAt l r (generate renderer { p with group }) = answerAt l r (generate renderer p) := by
  rw [answerAt_generate, answerAt_generate, answerAt_assemble, answerAt_assemble, h,
    outcomeAt_groupName_pinned l r h]
  simp only [assembleIn_group]

/-! ## The pages -/

def subPageAt (p : Request) : Option GeneratedPage :=
  (answerAt l r (generate renderer p)).map fun reply =>
    ⟨p.relativePath extension, textOrNote reply⟩

theorem foundAt_generateSubPages (ps : List Request) :
    foundAt l r (generateSubPages renderer extension ps) =
      ps.mapM (subPageAt l r renderer extension) := by
  unfold generateSubPages
  rw [Ends.foundAt_mapM (Ends.generateSubPage renderer extension)]
  congr 1
  funext p
  refine ((Ends.generate renderer p).foundAt_bind fun _ => .found _).trans ?_
  unfold subPageAt answerAt
  cases foundAt l r (generate renderer p).result <;> rfl

/-- The pages of requests that hold a group that has been looked up are those of the requests
without it. -/
theorem mapM_subPageAt_pinned {p : Request} {group : Option String}
    (hg : outcomeAt l r (groupName p) = .ok group) (selectors : List Selector) :
    (selectors.map (Request.select { p with group })).mapM (subPageAt l r renderer extension) =
      selectors.mapM fun s => subPageAt l r renderer extension (p.select s) := by
  rw [List.mapM_map]
  congr 1
  funext s
  have hpage : answerAt l r (generate renderer (Request.select { p with group } s)) =
      answerAt l r (generate renderer (p.select s)) :=
    answerAt_generate_pinned l r renderer (p := p.select s) hg
  change (answerAt l r (generate renderer (Request.select { p with group } s))).map _ = _
  rw [hpage]
  rfl

/-- There is a function that gives what stands in the place of every page that comes to an end. -/
theorem exists_subPage (p : Request) : ∃ page : Selector → GeneratedPage,
    (∀ s, (page s).relativePath = (p.select s).relativePath extension) ∧
      ∀ s q, subPageAt l r renderer extension (p.select s) = some q → page s = q := by
  -- What the function says of the other ones does not matter.
  refine ⟨fun s => ⟨(p.select s).relativePath extension,
    ((answerAt l r (generate renderer (p.select s))).map textOrNote).getD ""⟩, fun _ => rfl, ?_⟩
  intro s q hq
  obtain ⟨reply, hreply, rfl⟩ := Option.map_eq_some_iff.1 hq
  dsimp only
  rw [hreply]
  rfl

theorem answerAt_generatePages (root : Request) (o : Overview) :
    answerAt l r (generatePages renderer extension root o) =
      andThen (some (renderPage renderer (.interface (.ofOverview o root.group root.experimental))))
        fun text =>
          (((subSelectors o).map root.select).mapM (subPageAt l r renderer extension)).map
            fun pages => .ok (⟨root.relativePath extension, text⟩ :: pages) := by
  refine ((Ends.answer (renderPage renderer _)).answerAt_bind fun content =>
    (Ends.generateSubPages renderer extension _).ofSearch.inquire fun pages =>
      .answer (.ok _)).trans ?_
  rw [answerAt_ofExcept]
  congr 1
  funext content
  refine ((Ends.generateSubPages renderer extension _).ofSearch.answerAt_bind fun pages =>
    .answer (.ok _)).trans ?_
  rw [answerAt_ofSearch, foundAt_generateSubPages]
  cases ((subSelectors o).map root.select).mapM (subPageAt l r renderer extension) <;> rfl

/-- **All pages, by the group and the overview**, which are looked up once. -/
theorem answerAt_generateAll_once (p : Request) :
    answerAt l r (generateAll renderer extension p) =
      andThen (some (outcomeAt l r (groupName p))) fun group =>
        andThen (answerAt l r (overview p.interface)) fun o =>
          answerAt l r (generatePages renderer extension
            { p with selector := .overview, group } o) := by
  refine ((Ends.ofAttempt (.groupName p)).answerAt_bind fun group =>
    (Ends.overview p.interface).inquire (.generatePages renderer extension _)).trans ?_
  rw [answerAt_ofAttempt]
  congr 1
  funext group
  exact (Ends.overview p.interface).answerAt_bind (.generatePages renderer extension _)

/-- What there is where all pages have been generated: the group, the overview and its page, and
after this page those of all that the overview lists. -/
theorem exists_of_generateAll {p : Request} {pages : List GeneratedPage}
    (h : answerAt l r (generateAll renderer extension p) = some (.ok pages)) :
    ∃ group o content subPages, outcomeAt l r (groupName p) = .ok group ∧
      answerAt l r (overview p.interface) = some (.ok o) ∧
      renderPage renderer (.interface (.ofOverview o group p.experimental)) = .ok content ∧
      (subSelectors o).mapM (fun s => subPageAt l r renderer extension (p.select s)) =
        some subPages ∧
      pages = ⟨(p.select .overview).relativePath extension, content⟩ :: subPages := by
  rw [answerAt_generateAll_once] at h
  obtain ⟨group, hg, h⟩ := andThen_eq_ok_iff.1 h
  obtain ⟨o, ho, h⟩ := andThen_eq_ok_iff.1 h
  rw [answerAt_generatePages] at h
  obtain ⟨content, hc, h⟩ := andThen_eq_ok_iff.1 h
  obtain ⟨subPages, hsub, hpages⟩ := Option.map_eq_some_iff.1 h
  cases hpages
  have hg := Option.some.inj hg
  exact ⟨group, o, content, subPages, hg, ho, Option.some.inj hc,
    (mapM_subPageAt_pinned l r renderer extension (p := p) hg _).symm.trans hsub, rfl⟩

/-- **All pages**, where the group and the overview are there and the page of the overview has a
text. -/
theorem answerAt_generateAll_of_overview {p : Request} {group : Option String} {o : Overview}
    {content : String} (hg : outcomeAt l r (groupName p) = .ok group)
    (ho : answerAt l r (overview p.interface) = some (.ok o))
    (hc : renderPage renderer (.interface (.ofOverview o group p.experimental)) = .ok content) :
    answerAt l r (generateAll renderer extension p) =
      ((subSelectors o).mapM fun s => subPageAt l r renderer extension (p.select s)).map
        fun pages => .ok (⟨(p.select .overview).relativePath extension, content⟩ :: pages) := by
  rw [answerAt_generateAll_once, hg, ho]
  change answerAt l r (generatePages renderer extension _ o) = _
  rw [answerAt_generatePages, hc]
  -- The requests of the pages hold the group that has been looked up.
  have hpages := mapM_subPageAt_pinned l r renderer extension hg (subSelectors o)
  exact congrArg (Option.map fun pages => Except.ok
    ((⟨(p.select .overview).relativePath extension, content⟩ : GeneratedPage) :: pages)) hpages

end IdlDocs
