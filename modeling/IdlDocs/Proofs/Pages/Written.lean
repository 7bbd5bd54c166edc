import IdlDocs.Proofs.Files.Texts
import IdlDocs.Proofs.Pages.Paths

/-!
# Pages that are written

Pages are written one after the other, each as a file at the place that its path names.  No place
leads to another one, so that nothing is in the way of a page; but a page is written over one
before it that has the same path.

* `writePages_below`: **all pages are written**, where files may be put at their places.
* `get?_putPages`: **of the pages with one place the last one is kept.**
* `nodup_relativePath_iff`: the paths of all pages of an interface are different where their
  directories are.
* `last_page_kept`: what there is after all pages of an interface have been written.
* `pages_share_path`: two of them may have one path.
-/

namespace IdlDocs

open Idl Files
open Text (IsWordText)

/-! ## Pages at places -/

/-- The place of a page, below the directory of its interface. -/
def GeneratedPage.place (page : GeneratedPage) : List String := slashParts page.relativePath

def putPages (node : Node) (pages : List GeneratedPage) : Node :=
  pages.foldl (fun node page => node.put (.file page.content) page.place) node

variable {places : Set (List String)}

theorem get?_putPages_of_forall_ne (hfree : PrefixFree places) {pages : List GeneratedPage}
    (hpages : ∀ page ∈ pages, page.place ∈ places) {place : List String} (hplace : place ∈ places)
    (hne : ∀ page ∈ pages, page.place ≠ place) (node : Node) :
    (putPages node pages).get? place = node.get? place := by
  induction pages generalizing node with
  | nil => rfl
  | cons page pages ih =>
    have hpage := hpages page List.mem_cons_self
    have hother := hne page List.mem_cons_self
    change (putPages (node.put (.file page.content) page.place) pages).get? place = _
    rw [ih (fun q hq => hpages q (List.mem_cons_of_mem page hq)) fun q hq =>
      hne q (List.mem_cons_of_mem page hq)]
    exact Node.get?_put_of_disjoint (fun h => hother (hfree _ hpage _ hplace h))
      fun h => hother (hfree _ hplace _ hpage h).symm

/-- **Of the pages with one place the last one is kept.** -/
theorem get?_putPages (hfree : PrefixFree places) {before after : List GeneratedPage}
    {page : GeneratedPage} (hpages : ∀ q ∈ before ++ page :: after, q.place ∈ places)
    (hlast : ∀ q ∈ after, q.place ≠ page.place) (node : Node) :
    (putPages node (before ++ page :: after)).get? page.place = some (.file page.content) := by
  have hmem : ∀ q ∈ page :: after, q.place ∈ places := fun q hq =>
    hpages q (List.mem_append_right before hq)
  unfold putPages
  rw [List.foldl_append, List.foldl_cons]
  change (putPages ((putPages node before).put _ page.place) after).get? page.place = _
  rw [get?_putPages_of_forall_ne hfree (fun q hq => hmem q (List.mem_cons_of_mem page hq))
    (hmem page List.mem_cons_self) hlast]
  exact Node.get?_put_self _ _ _

/-- **All pages are written**, each at its place, where files may be put at their places. -/
theorem writePages_below {files : Tree} {root : String} {node : Node} (hfree : PrefixFree places)
    (hnames : ∀ p ∈ places, p ≠ [] ∧ ∀ name ∈ p, IsEntryName name)
    (hfind : files.find? root = some node) (hopen : node.Open places)
    {pages : List GeneratedPage} (hpages : ∀ page ∈ pages, page.place ∈ places) :
    ∃ files', writePages files root pages = (.ok (pages.map (·.path root)), files') ∧
      files'.find? root = some (putPages node pages) := by
  induction pages generalizing files node with
  | nil => exact ⟨files, rfl, hfind⟩
  | cons page pages ih =>
    have hpage := hpages page List.mem_cons_self
    obtain ⟨hne, hentry⟩ := hnames _ hpage
    obtain ⟨files₁, hwrite, hfind₁⟩ := Tree.write?_below hfind hentry hne
      (hopen.noDirectory _ hpage) (hopen.noFile _ hpage) page.content
    obtain ⟨files₂, hrest, hfind₂⟩ := ih hfind₁ (hopen.put hfree hpage page.content)
      fun q hq => hpages q (List.mem_cons_of_mem page hq)
    refine ⟨files₂, ?_, hfind₂⟩
    change files.write? (page.path root) page.content = some files₁ at hwrite
    unfold writePages
    rw [hwrite]
    dsimp only
    rw [hrest]
    rfl

/-! ## The places of the pages of an interface -/

/-- The places of pages: the file of the overview, and one in each directory that is a word. -/
def pagePlaces (extension : String) : Set (List String) :=
  {place | place = [indexName extension] ∨ ∃ d, (IsWordText d ∧ d ≠ "" ∧ d.utf8ByteSize ≤ 255) ∧
    place = [d, indexName extension]}

/-- None of the places in directories that are words leads to another one. -/
theorem eq_of_prefix_of_word {extension : String} {p q : List String}
    (hp : p = [indexName extension] ∨ ∃ d, IsWordText d ∧ p = [d, indexName extension])
    (hq : q = [indexName extension] ∨ ∃ d, IsWordText d ∧ q = [d, indexName extension])
    (h : p <+: q) : p = q := by
  rcases hp with rfl | ⟨d, -, rfl⟩
  · rcases hq with rfl | ⟨e, he, rfl⟩
    · rfl
    · exact absurd (List.cons_prefix_cons.1 h).1.symm (ne_indexName_of_isWordText he extension)
  · rcases hq with rfl | ⟨e, -, rfl⟩
    · exact absurd h.length_le (by simp)
    · exact h.eq_of_length rfl

theorem prefixFree_pagePlaces (extension : String) : PrefixFree (pagePlaces extension) := by
  intro p hp q hq h
  exact eq_of_prefix_of_word (hp.imp_right fun ⟨d, hd, he⟩ => ⟨d, hd.1, he⟩)
    (hq.imp_right fun ⟨d, hd, he⟩ => ⟨d, hd.1, he⟩) h

theorem isEntryName_of_mem_pagePlaces {extension : String}
    (hext : IsEntryName (indexName extension)) :
    ∀ p ∈ pagePlaces extension, p ≠ [] ∧ ∀ name ∈ p, IsEntryName name := by
  rintro p (rfl | ⟨d, ⟨hword, hne, hlong⟩, rfl⟩)
  · exact ⟨List.cons_ne_nil _ _, List.forall_mem_singleton.2 hext⟩
  · exact ⟨List.cons_ne_nil _ _, List.forall_mem_cons.2
      ⟨isEntryName_of_isWordText hword hne hlong, List.forall_mem_singleton.2 hext⟩⟩

variable {l : Library} {r : Registry} {e : Templates.Engine} {renderer : Templates.Renderer e}
  {extension : String}

/-- **All pages of an interface have different paths where their directories differ**, and only
there. -/
theorem nodup_relativePath_iff {p : Request} {pages : List GeneratedPage}
    (h : answerAt l r (generateAll renderer extension p) = some (.ok pages)) :
    ∃ o, answerAt l r (overview p.interface) = some (.ok o) ∧
      ((pages.map (·.relativePath)).Nodup ↔
        ((subSelectors o).map (·.directory? p.interface)).Nodup) := by
  obtain ⟨group, o, content, subPages, -, ho, -, hsub, rfl⟩ :=
    exists_of_generateAll l r renderer extension h
  obtain ⟨page, hpath, hpage⟩ := exists_subPage l r renderer extension p
  obtain ⟨rfl, -⟩ := (mapM_eq_some_iff_map hpage).1 hsub
  refine ⟨o, ho, ?_⟩
  have hpaths : ∀ s : Selector, (p.select s).relativePath extension =
      pathIn extension (s.directory? p.interface) := relativePath_eq p.interface extension
  have hoverview : none ∉ (subSelectors o).map (·.directory? p.interface) := by
    rintro hmem
    obtain ⟨s, hs, hnone⟩ := List.mem_map.1 hmem
    obtain ⟨d, hd⟩ := exists_directory_of_mem p.interface hs
    rw [hnone] at hd
    cases hd
  have hmap : ((⟨(p.select .overview).relativePath extension, content⟩ ::
      (subSelectors o).map page).map (·.relativePath)) =
      (none :: (subSelectors o).map (·.directory? p.interface)).map (pathIn extension) := by
    rw [List.map_cons, List.map_cons, List.map_map, List.map_map]
    exact congrArg (_ :: ·) (List.map_congr_left fun s _ => (hpath s).trans (hpaths s))
  rw [hmap, List.nodup_map_iff (pathIn_injective extension), List.nodup_cons]
  exact and_iff_right hoverview

/-- **Each page of an interface has its place in a directory of its own**, but for that of the
overview. -/
theorem place_of_mem {p : Request} {pages : List GeneratedPage}
    (h : answerAt l r (generateAll renderer extension p) = some (.ok pages)) {o : Overview}
    (ho : answerAt l r (overview p.interface) = some (.ok o))
    (hi : o.hasConstructor = true → IsWordText p.interface ∧ p.interface ≠ "")
    (hext : '/' ∉ (indexName extension).toList) :
    ∀ page ∈ pages, page.place = [indexName extension] ∨
      ∃ s ∈ subSelectors o, ∃ d, s.directory? p.interface = some d ∧ (IsWordText d ∧ d ≠ "") ∧
        page.place = [d, indexName extension] := by
  obtain ⟨group, o', content, subPages, -, ho', -, hsub, rfl⟩ :=
    exists_of_generateAll l r renderer extension h
  cases ho.symm.trans ho'
  obtain ⟨-, fs, main, hof⟩ := exists_of_overview ho
  obtain ⟨page, hpath, hpage⟩ := exists_subPage l r renderer extension p
  obtain ⟨rfl, -⟩ := (mapM_eq_some_iff_map hpage).1 hsub
  have hplace : ∀ s : Selector, (∀ d, s.directory? p.interface = some d → IsWordText d) →
      slashParts ((p.select s).relativePath extension) =
        stepsIn extension (s.directory? p.interface) := by
    intro s hs
    change slashParts (s.relativePath p.interface extension) = _
    rw [relativePath_eq, slashParts_pathIn hext]
    exact fun d hd hslash => absurd (hs d hd '/' hslash) (by decide)
  rw [List.forall_mem_cons, List.forall_mem_map]
  constructor
  · exact .inl (hplace .overview nofun)
  · intro s hs
    obtain ⟨d, hd⟩ := exists_directory_of_mem p.interface hs
    have hword := isWordText_directory hof hi hs hd
    refine .inr ⟨s, hs, d, hd, hword, ?_⟩
    refine (congrArg slashParts (hpath s)).trans
      ((hplace s fun d' hd' => ?_).trans (by rw [hd]; rfl))
    cases hd.symm.trans hd'
    exact hword.1

/-- The pages of an interface have their places, if the names of their directories are not too
long. -/
theorem mem_pagePlaces {p : Request} {pages : List GeneratedPage}
    (h : answerAt l r (generateAll renderer extension p) = some (.ok pages)) {o : Overview}
    (ho : answerAt l r (overview p.interface) = some (.ok o))
    (hi : o.hasConstructor = true → IsIdentifier p.interface)
    (hext : IsEntryName (indexName extension))
    (hlong : ∀ s ∈ subSelectors o, ∀ d, s.directory? p.interface = some d →
      d.utf8ByteSize ≤ 255) :
    ∀ page ∈ pages, page.place ∈ pagePlaces extension := by
  intro page hpage
  have hword := fun hc => And.intro (isWordText_of_isIdentifier (hi hc)) (hi hc).ne_empty
  rcases place_of_mem h ho hword hext.noSlash page hpage with hroot | ⟨s, hs, d, hd, hd', hplace⟩
  · exact .inl hroot
  · exact .inr ⟨d, ⟨hd'.1, hd'.2, hlong s hs d hd⟩, hplace⟩

/-- **Of the pages of an interface with one path the last one is kept.**  All pages have
different paths where the overview lists nothing under two names that differ in case only, no
member that is named as the interface besides a constructor, and no member that is named as the
directory of an event.  They can be written into an empty directory if their files may have their
names; then each page is kept up to the next one with its path, and all are where there is no
such page. -/
theorem last_page_kept {p : Request} {pages : List GeneratedPage}
    (h : answerAt l r (generateAll renderer extension p) = some (.ok pages)) :
    ∃ o, answerAt l r (overview p.interface) = some (.ok o) ∧
      ((pages.map (·.relativePath)).Nodup ↔
        ((subSelectors o).map (·.directory? p.interface)).Nodup) ∧
      ((o.hasConstructor = true → IsIdentifier p.interface) →
        IsEntryName (indexName extension) →
        (∀ s ∈ subSelectors o, ∀ d, s.directory? p.interface = some d → d.utf8ByteSize ≤ 255) →
        ∀ (files : Tree) (root : String), files.find? root = some (.directory []) →
          ∃ files', writePages files root pages = (.ok (pages.map (·.path root)), files') ∧
            (∀ before page after, pages = before ++ page :: after →
              (∀ q ∈ after, q.relativePath ≠ page.relativePath) →
              files'.read (page.path root) = .ok page.content) ∧
            ((pages.map (·.relativePath)).Nodup →
              ∀ page ∈ pages, files'.read (page.path root) = .ok page.content)) := by
  obtain ⟨o, ho, hnodup⟩ := nodup_relativePath_iff h
  refine ⟨o, ho, hnodup, fun hi hext hlong files root hfind => ?_⟩
  have hplaces := mem_pagePlaces h ho hi hext hlong
  have hfree := prefixFree_pagePlaces extension
  have hnames := isEntryName_of_mem_pagePlaces hext
  obtain ⟨files', hwrite, hfind'⟩ := writePages_below hfree hnames hfind
    (Node.open_empty fun hnil => (hnames _ hnil).1 rfl) hplaces
  have hkept : ∀ before page after, pages = before ++ page :: after →
      (∀ q ∈ after, q.relativePath ≠ page.relativePath) →
      files'.read (page.path root) = .ok page.content := by
    rintro before page after rfl hlast
    have hpage := hnames _ (hplaces page (List.mem_append_right _ List.mem_cons_self))
    have hget := get?_putPages hfree hplaces
      (fun q hq he => hlast q hq (slashParts_injective he)) (.directory [])
    have hfile := Tree.find?_below hfind' hpage.2 hpage.1 hget
    exact Tree.read_eq_ok_iff.2 hfile
  refine ⟨files', hwrite, hkept, fun hnodup page hpage => ?_⟩
  obtain ⟨before, after, rfl⟩ := List.append_of_mem hpage
  refine hkept before page after rfl fun q hq he => ?_
  rw [List.map_append, List.map_cons] at hnodup
  exact (List.nodup_cons.1 (List.nodup_append.1 hnodup).2.1).1 (he ▸ List.mem_map_of_mem hq)

/-! ## Pages that share a path -/

/-- A library with two interfaces: one with a single method, and one with two methods whose names
differ in case only. -/
def caseLibrary : Library where
  source := .memory [
    ("groups.json", "[\x7b\x7d]"), ("names.json", "\x7b\x7d"), ("events.json", "[]"),
    ("A.json", "\x7b\"defined\": \x7b\"fragment\": " ++
      "\"interface A \x7b any f(); \x7d;\"\x7d\x7d"),
    ("B.json", "\x7b\"defined\": \x7b\"fragment\": " ++
      "\"interface B \x7b any f(); any F(); \x7d;\"\x7d\x7d")]
  config := { groups := "groups.json", names := "names.json", events := "events.json", base := "" }

def emptyDirectory : Tree := { root := .directory [("out", .directory [])] }

/-- The page of the only method of an interface is kept beside that of the overview. -/
theorem last_page_kept_small :
    ∃ (pages : List GeneratedPage) (files : Tree),
      answerAt caseLibrary {} (generateAll .standard "md" { interface := "A" }) = some (.ok pages) ∧
      (pages.map (·.relativePath)).Nodup ∧
      writePages emptyDirectory "out" pages = (.ok (pages.map (·.path "out")), files) ∧
      ∀ page ∈ pages, files.read (page.path "out") = .ok page.content := by
  have hread : caseLibrary.isRoot "A" (fun fs => listedSelectors fs == [.member "f" false]) =
      true := by decide +kernel
  have hfin : caseLibrary.source.texts.Finite := finite_texts_memory _
  obtain ⟨o, fs, main, ho, hof, htest⟩ := exists_overview_of_isRoot hfin hread
  have hlisted : subSelectors o = [.member "f" false] :=
    List.perm_singleton.1 (eq_of_beq htest ▸ perm_subSelectors hof)
  obtain ⟨pages, hpages⟩ := exists_generateAll (l := caseLibrary) (p := { interface := "A" })
    "md" (fun hne => absurd rfl hne) (finite_namedDictionaries hfin {}) (by decide) ho
  obtain ⟨o', ho', hnodup, hwritten⟩ := last_page_kept hpages
  cases ho.symm.trans ho'
  have hdistinct : (pages.map (·.relativePath)).Nodup := by
    rw [hnodup, hlisted]
    exact List.nodup_singleton _
  obtain ⟨files, hwrite, -, hkept⟩ := hwritten
    (fun _ => ⟨'A', [], rfl, by decide, nofun⟩)
    ⟨by decide +kernel, by decide, by decide⟩
    (by rw [hlisted]; exact List.forall_mem_singleton.2 fun d hd => by cases hd; decide +kernel)
    emptyDirectory "out" rfl
  exact ⟨pages, files, hpages, hdistinct, hwrite, hkept hdistinct⟩

theorem exists_rest_of_methodPage {page : MemberPage} (hk : page.kind = .method) {text : String}
    (h : renderPage .standard (.member page) = .ok text) :
    ∃ rest, text.toList = "---\ntitle: \"".toList ++ (page.interface.toList ++ (": ".toList ++
      (page.member.toList ++ ("() ".toList ++ rest)))) := by
  obtain ⟨ps, hps⟩ : ∃ ps, Templates.methodTemplate =
      .text "---\ntitle: \"" :: Templates.field "interfaceName" :: .text ": " ::
        Templates.field "memberName" :: .text "() " :: ps := ⟨_, rfl⟩
  have hall := renderAll?_of_renderPage h
  change Templates.renderAll? _ (Templates.builtIn page.kind.template) = _ at hall
  rw [hk] at hall
  change Templates.renderAll? _ Templates.methodTemplate = _ at hall
  rw [hps] at hall
  simp only [Templates.renderAll?, Templates.field, Templates.Piece.render?] at hall
  cases hrest : Templates.renderAll? [⟨(Page.member page).toJson, []⟩] ps with
  | none => rw [hrest] at hall; cases hall
  | some rest =>
    rw [hrest] at hall
    exact ⟨rest, (Option.some.inj hall).symm⟩

/-- A first operation with a name has its page among all pages, and the page starts with the
name. -/
theorem exists_methodPage {interface : String} (hi : interface ≠ "")
    {pages : List GeneratedPage}
    (h : answerAt l r (generateAll .standard extension { interface }) = some (.ok pages))
    {o : Overview} (ho : answerAt l r (overview interface) = some (.ok o)) {fs : Fragments} {main : Interface}
    (hof : IsOverview l r interface o fs main) {m : Member}
    (hm : m ∈ firsts (Fragments.members fs)) (hop : m.isOperation = true) {name : String}
    (hn : m.name = some name) :
    .member name m.isStatic ∈ subSelectors o ∧ ∃ text rest,
      (⟨Selector.relativePath interface extension (.member name m.isStatic), text⟩ :
        GeneratedPage) ∈ pages ∧
      text.toList = "---\ntitle: \"".toList ++ (interface.toList ++ (": ".toList ++
        (name.toList ++ ("() ".toList ++ rest)))) := by
  obtain ⟨group, o', content, subPages, hg, ho', -, hsub, rfl⟩ := exists_of_generateAll _ _ _ _ h
  cases ho.symm.trans ho'
  have hnamed := (hof.wellFormed m (mem_of_mem_firsts hm)).wellNamed.isNamed_of_name hn
  have hlisted := (mem_methodList_iff hof.members).2 ⟨m, hm, hop, hnamed, rfl, rfl⟩
  have hs : .member name m.isStatic ∈ subSelectors o :=
    member_mem_subSelectors.2 (.inr ⟨_, hlisted, nameOrEmpty_of_name hn⟩)
  obtain ⟨subPage, -, hsubPage⟩ := exists_subPage l r .standard extension { interface }
  obtain ⟨rfl, hall⟩ := (mapM_eq_some_iff_map hsubPage).1 hsub
  have hpage := hall _ hs
  -- The page has come to an end, so that its record has.
  obtain ⟨reply, hreply, hcontent⟩ := Option.map_eq_some_iff.1 hpage
  have hassemble := assemble_of_first hof (p := { interface, selector := .member name m.isStatic })
    rfl hm hn rfl hg
  cases hrecord : foundAt l r (memberPage { interface, selector := .member name m.isStatic }
      ⟨m, o.isSecure || m.isSecure⟩ group) with
  | none =>
    change answerAt l r (generate .standard
      { interface, selector := .member name m.isStatic }) = some reply at hreply
    rw [answerAt_generate, hassemble, hrecord] at hreply
    cases hreply
  | some record =>
    rw [hrecord] at hassemble
    obtain ⟨hmember, -, hkind, -⟩ := record_of_first hof hm hn hrecord
    obtain ⟨text, htext⟩ := exists_generate hi hassemble
    have hrender := htext
    rw [answerAt_generate, hassemble] at hrender
    obtain ⟨rest, hrest⟩ := exists_rest_of_methodPage
      (hkind.trans (pageKind_of_isOperation hop)) (Option.some.inj hrender)
    have howner := (renderable_of_assemble hassemble).1
    change record.interface = interface at howner
    rw [howner, hmember] at hrest
    cases hreply.symm.trans htext
    exact ⟨hs, text, rest, List.mem_cons_of_mem _ (hcontent ▸ List.mem_map_of_mem hs), hrest⟩

/-- **Two pages of an interface may have one path**, so that not both of them can be kept.  The
methods `f` and `F` have different pages, but share the directory `f`. -/
theorem pages_share_path :
    ∃ pages,
      answerAt caseLibrary {} (generateAll .standard "md" { interface := "B" }) =
        some (.ok pages) ∧
      ¬(pages.map (·.relativePath)).Nodup ∧
      ∀ (files : Tree) (root : String),
        ¬∀ page ∈ pages, files.read (page.path root) = .ok page.content := by
  have hread : caseLibrary.isRoot "B" (fun fs => ["f", "F"].all fun name =>
      (firsts (Fragments.members fs)).any fun m =>
        m.isOperation && !m.isStatic && m.name == some name) = true := by decide +kernel
  have hfin : caseLibrary.source.texts.Finite := finite_texts_memory _
  obtain ⟨o, fs, main, ho, hof, htest⟩ := exists_overview_of_isRoot hfin hread
  obtain ⟨pages, hpages⟩ := exists_generateAll (l := caseLibrary) (p := { interface := "B" })
    "md" (fun hne => absurd rfl hne) (finite_namedDictionaries hfin {}) (by decide) ho
  obtain ⟨o', ho', hnodup⟩ := nodup_relativePath_iff hpages
  cases ho.symm.trans ho'
  have hpath : ∀ name ∈ ["f", "F"],
      Selector.relativePath "B" "md" (.member name false) = "f/index.md" := by decide +kernel
  -- Each of the two methods is listed, has the path of `f`, and its own name in its page.
  have hmethod : ∀ name ∈ ["f", "F"], .member name false ∈ subSelectors o ∧ ∃ text rest,
      (⟨"f/index.md", text⟩ : GeneratedPage) ∈ pages ∧
      text.toList = "---\ntitle: \"".toList ++ ("B".toList ++ (": ".toList ++
        (name.toList ++ ("() ".toList ++ rest)))) := by
    intro name hname
    obtain ⟨m, hm, hmtest⟩ := List.any_eq_true.1 (List.all_eq_true.1 htest name hname)
    simp only [Bool.and_eq_true, Bool.not_eq_true', beq_iff_eq] at hmtest
    obtain ⟨⟨hop, hstatic⟩, hn⟩ := hmtest
    have hfound := exists_methodPage (by decide) hpages ho hof hm hop hn
    rwa [hstatic, hpath name hname] at hfound
  obtain ⟨hsmall, text, rest, hmem, htext⟩ := hmethod "f" (by decide)
  obtain ⟨hlarge, text', rest', hmem', htext'⟩ := hmethod "F" (by decide)
  refine ⟨pages, hpages, fun hdistinct => ?_, fun files root hkept => ?_⟩
  · have hone := List.inj_on_of_nodup_map (hnodup.1 hdistinct) hsmall hlarge (by decide +kernel)
    exact absurd hone (by decide)
  · have hsame : text = text' := Except.ok.inj ((hkept _ hmem).symm.trans (hkept _ hmem'))
    rw [hsame, htext'] at htext
    simp at htext

end IdlDocs
