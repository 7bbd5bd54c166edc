import IdlDocs.Proofs.Interfaces.Events
import IdlDocs.Proofs.Pages.Entries
import IdlDocs.Proofs.Pages.Rendered
import IdlDocs.Proofs.Pages.Together

/-!
# Pages that fail

A page fails where its record cannot be put together, or where the record has no text.  With the
built-in templates the second never happens.  The record of what an overview lists can always be
put together, but for events: their own interfaces may be missing.

* `renderable_of_assemble`: records are about the interface of their request, and list named
  properties only.
* `generate_error_iff`: **a page fails where its record does**, and in the same way.
* `perm_subSelectors`: what the pages besides the overview are about.
* `assemble_of_listed`: the record of a constructor or a member that is listed.
* `assemble_event_error_iff`: that of an event may fail.
* `only_events_fail`: **of all pages of an interface only those of events fail**, and these only
  where the definitions of the event's own interface cannot be read.
-/

namespace IdlDocs

open Idl

variable {l : Library} {r : Registry}

/-! ## Records -/

theorem owner_of_memberPage {p : Request} {found : FoundMember} {group : Option String}
    {page : MemberPage} (h : foundAt l r (memberPage p found group) = some page) :
    page.interface = p.interface := by
  obtain ⟨_, _, _, -, -, -, rfl⟩ := (foundAt_memberPage_eq_some_iff p group).1 h
  rfl

/-- The record of a member that has been looked up is about the interface of the request. -/
theorem renderable_of_found {p : Request} {group : Option String} {x : Except Failure FoundMember}
    {page : Page}
    (h : andThen (some x) (fun found => (foundAt l r (memberPage p found group)).map fun page =>
      .ok (.member page)) = some (.ok page)) :
    page.owner = p.interface ∧ ∀ e ∈ page.eventProperties, e.name ≠ "" := by
  obtain ⟨found, -, h⟩ := andThen_eq_ok_iff.1 h
  obtain ⟨record, hrecord, hpage⟩ := Option.map_eq_some_iff.1 h
  cases hpage
  exact ⟨owner_of_memberPage hrecord, fun e he => absurd he List.not_mem_nil⟩

/-- Records are about the interface of their request, and list named properties only. -/
theorem renderable_of_assembleIn {p : Request} {group : Option String} {page : Page}
    (h : answerAt l r (assembleIn p group) = some (.ok page)) :
    page.owner = p.interface ∧ ∀ e ∈ page.eventProperties, e.name ≠ "" := by
  cases hs : p.selector with
  | overview =>
    rw [answerAt_assembleIn_overview p group hs] at h
    obtain ⟨o, ho, rfl⟩ := map_map_eq_ok_iff.1 h
    obtain ⟨-, fs, main, hof⟩ := exists_of_overview ho
    exact ⟨hof.name, fun e he => absurd he List.not_mem_nil⟩
  | constructor =>
    rw [answerAt_assembleIn_constructor p group hs] at h
    exact renderable_of_found h
  | member name isStatic =>
    rw [answerAt_assembleIn_member p group hs] at h
    exact renderable_of_found h
  | event event =>
    rw [answerAt_assembleIn_event p group hs] at h
    obtain ⟨found, hfound, rfl⟩ := map_map_eq_ok_iff.1 h
    exact ⟨rfl, name_ne_empty_of_findEvent hfound⟩

/-- So are the records of requests of which the group is still to be looked up. -/
theorem renderable_of_assemble {p : Request} {page : Page}
    (h : answerAt l r (assemble p) = some (.ok page)) :
    page.owner = p.interface ∧ ∀ e ∈ page.eventProperties, e.name ≠ "" := by
  rw [answerAt_assemble] at h
  obtain ⟨group, -, hin⟩ := andThen_eq_ok_iff.1 h
  exact renderable_of_assembleIn hin

theorem exists_generate {p : Request} (hp : p.interface ≠ "") {page : Page}
    (h : answerAt l r (assemble p) = some (.ok page)) :
    ∃ text, answerAt l r (generate .standard p) = some (.ok text) := by
  obtain ⟨howner, hnames⟩ := renderable_of_assemble h
  obtain ⟨text, htext⟩ := exists_renderPage (howner ▸ hp) hnames
  exact ⟨text, by rw [answerAt_generate, h]; exact congrArg some htext⟩

/-- **A page fails where its record does**, and in the same way. -/
theorem generate_error_iff {p : Request} (hp : p.interface ≠ "") {e : Failure} :
    answerAt l r (generate .standard p) = some (.error e) ↔
      answerAt l r (assemble p) = some (.error e) := by
  constructor
  · intro h
    rw [answerAt_generate] at h
    rcases andThen_eq_error_iff.1 h with ha | ⟨page, ha, -⟩
    · exact ha
    · obtain ⟨text, htext⟩ := exists_generate hp ha
      rw [← answerAt_generate, htext] at h
      cases h
  · intro h
    rw [answerAt_generate]
    exact andThen_eq_error_iff.2 (.inl h)

/-! ## What is listed -/

theorem constructor_mem_subSelectors {o : Overview} :
    .constructor ∈ subSelectors o ↔ o.hasConstructor = true := by
  simp [subSelectors]

theorem member_mem_subSelectors {o : Overview} {name : String} {isStatic : Bool} :
    .member name isStatic ∈ subSelectors o ↔
      (∃ e ∈ o.members.propertyList isStatic, e.name = name) ∨
        ∃ e ∈ o.members.methodList isStatic, e.name = name := by
  cases isStatic <;>
    simp [subSelectors, MemberGroups.propertyList, MemberGroups.methodList]

theorem event_mem_subSelectors {o : Overview} {event : String} :
    .event event ∈ subSelectors o ↔ event ∈ o.events := by
  simp [subSelectors]

theorem overview_not_mem_subSelectors {o : Overview} : .overview ∉ subSelectors o := by
  simp [subSelectors]

/-- What a set of fragments has pages about, in order of declaration. -/
def listedSelectors (fs : Fragments) : List Selector :=
  let members (isStatic : Bool) (tests : List Test) :=
    (selected fs tests).map fun m => Selector.member m.nameOrEmpty isStatic
  (if hasConstructor fs then [.constructor] else []) ++
    members true (propertyTests true) ++ members false (propertyTests false) ++
    members true (methodTests true) ++ members false (methodTests false) ++
    (eventNames fs).map .event

theorem perm_entrySelectors {α : Type} (fs : Fragments) (tests : List Test) (isStatic : Bool)
    (f : Member → α) (name : α → String) (hname : ∀ m, name (f m) = m.nameOrEmpty) :
    ((((selectSorted fs tests).map (·.map f)).getD []).map fun e =>
      Selector.member (name e) isStatic).Perm
    ((selected fs tests).map fun m => Selector.member m.nameOrEmpty isStatic) := by
  refine ((perm_selectSorted fs tests f).map _).trans (.of_eq ?_)
  rw [List.map_map]
  exact List.map_congr_left fun m _ => congrArg (Selector.member · isStatic) (hname m)

/-- **The pages are about what the definitions have**, in another order. -/
theorem perm_subSelectors {interface : String} {o : Overview} {fs : Fragments}
    {main : Interface} (ho : IsOverview l r interface o fs main) :
    (subSelectors o).Perm (listedSelectors fs) := by
  obtain ⟨entry, hgroups, hname, -⟩ := exists_listedBy ho.members
  have hproperties (isStatic : Bool) := perm_entrySelectors fs (propertyTests isStatic) isStatic
    entry (·.name) hname
  have hmethods (isStatic : Bool) := perm_entrySelectors fs (methodTests isStatic) isStatic
    MethodEntry.ofMember (·.name) fun m => rfl
  unfold subSelectors listedSelectors
  rw [ho.hasConstructor, hgroups, ho.events]
  refine .append (.append (.append (.append (.append (.refl _) (hproperties true))
    (hproperties false)) (hmethods true)) (hmethods false)) ?_
  exact (List.mergeSort_perm (eventNames fs) _).map Selector.event

theorem exists_first_of_listed {interface : String} {o : Overview} {fs : Fragments}
    {main : Interface} (ho : IsOverview l r interface o fs main) {name : String}
    {isStatic : Bool} (hs : .member name isStatic ∈ subSelectors o) :
    ∃ m ∈ firsts (Fragments.members fs), m.name = some name ∧ m.isStatic = isStatic ∧
      IsIdentifier name := by
  rcases member_mem_subSelectors.1 hs with ⟨e, he, rfl⟩ | ⟨e, he, rfl⟩
  · obtain ⟨m, hm, hattr, hstatic, -, he⟩ := (mem_propertyList_iff ho.members).1 he
    have hw := (ho.wellFormed m (mem_of_mem_firsts hm)).wellNamed
    obtain ⟨name, hn⟩ := hw.exists_name hattr
    rw [name_of_propertyEntry he, nameOrEmpty_of_name hn]
    exact ⟨m, hm, hn, hstatic, hw.isIdentifier (.inl hattr) hn⟩
  · obtain ⟨m, hm, hop, hnamed, hstatic, rfl⟩ := (mem_methodList_iff ho.members).1 he
    have hw := (ho.wellFormed m (mem_of_mem_firsts hm)).wellNamed
    have hn := name_of_isNamed hnamed
    exact ⟨m, hm, hn, hstatic, hw.isIdentifier (.inr hop) hn⟩

theorem isIdentifier_of_handler {fs : Fragments}
    (hw : ∀ m ∈ Fragments.members fs, m.WellNamed) {event : String} {m : Member}
    (h : handler? fs event = some m) : IsIdentifier (handlerLead ++ event) := by
  obtain ⟨hfirst, htests⟩ := mem_selected.1 (List.mem_of_head? h)
  rw [List.forall_mem_cons, List.forall_mem_singleton, hasName_iff] at htests
  have hattr := isAttribute_of_isEventHandler htests.1
  exact (hw m (mem_of_mem_firsts hfirst)).isIdentifier (.inl hattr) htests.2

theorem isIdentifier_of_listed_event {interface : String} {o : Overview} {fs : Fragments}
    {main : Interface} (ho : IsOverview l r interface o fs main) {event : String}
    (hs : .event event ∈ subSelectors o) : IsIdentifier (handlerLead ++ event) := by
  rw [event_mem_subSelectors, ho.events, sortNames, List.mem_mergeSort] at hs
  obtain ⟨m, hm⟩ := mem_eventNames_iff.1 hs
  exact isIdentifier_of_handler (fun m hm => (ho.wellFormed m hm).wellNamed) hm

/-- **The record of a constructor or a member that is listed is put together** as the texts of its
types are, and does not fail. -/
theorem assemble_of_listed {p : Request} {o : Overview} {fs : Fragments}
    {main : Interface} (ho : IsOverview l r p.interface o fs main) {group : Option String}
    (hg : outcomeAt l r (groupName p) = .ok group) {s : Selector} (hs : s ∈ subSelectors o)
    (hevent : ∀ event, s ≠ .event event) :
    ∃ found, answerAt l r (assemble (p.select s)) =
      (foundAt l r (memberPage (p.select s) found group)).map fun page => .ok (.member page) := by
  cases s with
  | overview => exact absurd hs overview_not_mem_subSelectors
  | event event => exact absurd rfl (hevent event)
  | constructor =>
    rw [constructor_mem_subSelectors, ho.hasConstructor] at hs
    obtain ⟨m, hm⟩ := hasConstructor_iff.1 hs
    rw [answerAt_assemble_of_group (p := p.select .constructor) hg,
      answerAt_assembleIn_constructor _ _ rfl]
    change ∃ found, andThen (some (outcomeAt l r (findConstructor p.interface))) _ = _
    rw [outcomeAt_findConstructor ho.fragments, hm]
    exact ⟨_, rfl⟩
  | member name isStatic =>
    obtain ⟨m, hm, hname, rfl, -⟩ := exists_first_of_listed ho hs
    exact ⟨_, assemble_of_first (p := p.select (.member name m.isStatic)) ho rfl hm hname rfl hg⟩

/-- The record of an event that is listed fails where the definitions of its own interface
do. -/
theorem assemble_event_error_iff {p : Request} {o : Overview} {fs : Fragments}
    {main : Interface} (ho : IsOverview l r p.interface o fs main) {group : Option String}
    (hg : outcomeAt l r (groupName p) = .ok group) {t : Tables}
    (ht : outcomeAt l r Registry.tables = .ok t) {event : String}
    (hevent : .event event ∈ subSelectors o) {e : Failure} :
    answerAt l r (assemble (p.select (.event event))) = some (.error e) ↔
      ∃ name, eventInterface? t event p.interface = some name ∧ name ≠ baseEvent ∧
        outcomeAt l r (Registry.definitionsOf name) = .error e := by
  rw [event_mem_subSelectors, ho.events, sortNames, List.mem_mergeSort] at hevent
  rw [answerAt_assemble_of_group (p := p.select (.event event)) hg,
    answerAt_assembleIn_event _ _ rfl, map_map_eq_error_iff]
  exact findEvent_error_iff ho.fragments hevent ht

/-! ## All pages -/

variable {c : Config} {source : Source} {extension : String}

/-- All pages are generated where the overview is there, and all descriptions come to an end. -/
theorem exists_generateAll (extension : String) (hr : r.Grounded)
    (hfin : (l.namedDictionaries r).Finite) {p : Request} (hp : p.interface ≠ "") {o : Overview}
    (ho : answerAt l r (overview p.interface) = some (.ok o)) :
    ∃ pages, answerAt l r (generateAll .standard extension p) = some (.ok pages) := by
  obtain ⟨⟨d, hd⟩, fs, main, hof⟩ := exists_of_overview ho
  obtain ⟨group, hg⟩ := exists_groupName hr hd p
  have howner : (Page.interface (.ofOverview o group p.experimental)).owner ≠ "" := by
    change o.name ≠ ""
    rw [hof.name]
    exact hp
  obtain ⟨content, hc⟩ := exists_renderPage howner fun e he => absurd he List.not_mem_nil
  obtain ⟨answer, hanswer⟩ := (Ends.generateAll .standard extension p).exists_answer hfin
  rw [answerAt_generateAll_of_overview l r .standard extension hg ho hc] at hanswer ⊢
  obtain ⟨pages, -, rfl⟩ := Option.map_eq_some_iff.1 hanswer
  exact ⟨_, hanswer⟩

/-- **Of all pages of an interface only those of events fail.**  Where all pages are generated
with the built-in templates, those of the constructor and of the members have a text.  That of
an event fails where the table of events names an interface for it, other than the base of all
events, whose definitions cannot be had, and fails as these do.  Then the note of this failure
stands in its place, and all other pages are what they are alone. -/
theorem only_events_fail (hr : Connected c {} r) {p : Request} (hp : p.interface ≠ "")
    {pages : List GeneratedPage}
    (h : answerAt ⟨source, c⟩ r (generateAll .standard extension p) = some (.ok pages)) :
    ∃ o t content subPages, answerAt ⟨source, c⟩ r (overview p.interface) = some (.ok o) ∧
      outcomeAt ⟨source, c⟩ r Registry.tables = .ok t ∧
      pages = ⟨(p.select .overview).relativePath extension, content⟩ :: subPages ∧
      (subSelectors o).mapM (fun s =>
        (answerAt ⟨source, c⟩ r (generate .standard (p.select s))).map fun reply =>
          (⟨(p.select s).relativePath extension,
            match reply with
            | .ok text => text
            | .error e => "**Error:** " ++ e.message⟩ : GeneratedPage)) = some subPages ∧
      (∀ s ∈ subSelectors o, (∀ event, s ≠ .event event) →
        ∃ text, answerAt ⟨source, c⟩ r (generate .standard (p.select s)) = some (.ok text)) ∧
      ∀ event, .event event ∈ subSelectors o →
        (∃ reply, answerAt ⟨source, c⟩ r (generate .standard (p.select (.event event))) =
          some reply) ∧
        ∀ e, answerAt ⟨source, c⟩ r (generate .standard (p.select (.event event))) =
            some (.error e) ↔
          ∃ name, eventInterface? t event p.interface = some name ∧ name ≠ baseEvent ∧
            outcomeAt ⟨source, c⟩ r (Registry.definitionsOf name) = .error e := by
  obtain ⟨group, o, content, subPages, hg, ho, -, hsub, hpages⟩ := exists_of_generateAll _ _ _ _ h
  obtain ⟨⟨d, hd⟩, fs, main, hof⟩ := exists_of_overview ho
  obtain ⟨qs, hqs⟩ := hr
  obtain ⟨t, ht⟩ :=
    Library.exists_tablesAt_of_documentAt (hqs.grounded fun hne => absurd rfl hne) hd
  rw [← outcomeAt_tables] at ht
  -- All pages are there, so that each of them has come to an end.
  have hreply : ∀ s ∈ subSelectors o, ∃ reply,
      answerAt ⟨source, c⟩ r (generate .standard (p.select s)) = some reply := by
    intro s hs
    obtain ⟨page, hpage⟩ := (Templates.forall_of_mapM hsub).1 s hs
    obtain ⟨reply, hreply, -⟩ := Option.map_eq_some_iff.1 hpage
    exact ⟨reply, hreply⟩
  refine ⟨o, t, content, subPages, ho, ht, hpages, hsub, fun s hs hevent => ?_,
    fun event hevent => ⟨hreply _ hevent, fun e => ?_⟩⟩
  · obtain ⟨found, hassemble⟩ := assemble_of_listed hof hg hs hevent
    obtain ⟨reply, hreply⟩ := hreply s hs
    cases hrecord : foundAt ⟨source, c⟩ r (memberPage (p.select s) found group) with
    | none =>
      rw [answerAt_generate, hassemble, hrecord] at hreply
      cases hreply
    | some page =>
      rw [hrecord] at hassemble
      exact exists_generate (p := p.select s) hp hassemble
  · rw [generate_error_iff (p := p.select (.event event)) hp]
    exact assemble_event_error_iff hof hg ht hevent

theorem smallLibrary_event :
    ∃ t e, outcomeAt smallLibrary {} Registry.tables = .ok t ∧
      eventInterface? t "end" "A" = some "EndEvent" ∧
      outcomeAt smallLibrary {} (Registry.definitionsOf "EndEvent") = .error e := by
  have htables : (smallLibrary.tablesAt {}).toOption.any (fun t =>
      eventInterface? t "end" "A" == some "EndEvent") = true := by decide +kernel
  have hdocument : (smallLibrary.documentAt {} "EndEvent").isOk = false := by decide +kernel
  cases ht : smallLibrary.tablesAt {} with
  | error e => rw [ht] at htables; cases htables
  | ok t =>
    cases hd : smallLibrary.documentAt {} "EndEvent" with
    | ok d => rw [hd] at hdocument; cases hdocument
    | error e =>
      rw [ht] at htables
      refine ⟨t, e, (outcomeAt_tables _ _).trans ht, eq_of_beq htables, ?_⟩
      unfold Registry.definitionsOf
      rw [outcomeAt_then, outcomeAt_document, hd]
      rfl

/-- The page of an event fails that has an interface without a document. -/
theorem only_events_fail_small :
    ∃ (pages : List GeneratedPage) (o : Overview) (e : Failure),
      Connected smallLibrary.config {} {} ∧ "A" ≠ "" ∧
      answerAt smallLibrary {} (generateAll .standard "md" { interface := "A" }) =
        some (.ok pages) ∧
      answerAt smallLibrary {} (overview "A") = some (.ok o) ∧ .event "end" ∈ subSelectors o ∧
      outcomeAt smallLibrary {} (Registry.definitionsOf "EndEvent") = .error e ∧
      answerAt smallLibrary {} (generate .standard
        { interface := "A", selector := .event "end" }) = some (.error e) := by
  have hfin : smallLibrary.source.texts.Finite := finite_texts_memory _
  obtain ⟨o, fs, main, ho, hof, htest⟩ := exists_overview_of_isRoot hfin smallLibrary_isRoot
  rw [Bool.and_eq_true] at htest
  have hevent : .event "end" ∈ subSelectors o := by
    rw [event_mem_subSelectors, hof.events, sortNames, List.mem_mergeSort]
    exact mem_eventNames_iff.2 (Option.isSome_iff_exists.1 htest.2)
  obtain ⟨pages, hpages⟩ := exists_generateAll (l := smallLibrary) (p := { interface := "A" })
    "md" (fun hne => absurd rfl hne) (finite_namedDictionaries hfin {}) (by decide) ho
  obtain ⟨o', t, content, subPages, ho', ht, -, -, -, hfails⟩ :=
    only_events_fail (.refl {}) (by decide) hpages
  cases ho.symm.trans ho'
  obtain ⟨t', e, ht', hi, he⟩ := smallLibrary_event
  cases ht.symm.trans ht'
  exact ⟨pages, o, e, .refl {}, by decide, hpages, ho, hevent, he,
    ((hfails "end" hevent).2 e).2 ⟨"EndEvent", hi, by decide, he⟩⟩

end IdlDocs
