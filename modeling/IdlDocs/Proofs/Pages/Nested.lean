import IdlDocs.Proofs.Description.Words
import IdlDocs.Proofs.Interfaces.Agreement
import IdlDocs.Proofs.Pages.Failing
import IdlDocs.Proofs.Pages.Sections
import IdlDocs.Registry.Sample

/-!
# Types stay in their items

What a record holds has been read from source texts, but for the name of its interface, its group
and the interface of its event.  If these are in one line, and the values of enumerations are,
then the lists of the record stand in its page, however deep its types are.

* `Library.HasPlainValues`: the properties of a name mention no value with a line break.
* `isNested_of_assemble`: the records of such names are in one line but for the list items in
  types.
* `types_stay_in_items`: **the items in a list of properties are those of the entries, and the
  types of these go on in list items that are indented.**
-/

namespace IdlDocs

open Idl Text

variable {l : Library} {r : Registry} {name : String} {d : Document} {fs : Fragments}

/-- No value of an enumeration that a property of a name is described with has a line break. -/
def Library.HasPlainValues (l : Library) (r : Registry) (name : String) : Prop :=
  ∀ d fs, l.documentAt r name = .ok d → parse d.combined = .ok fs →
    ∀ m ∈ firsts (Fragments.members fs), m.isAttribute = true → ∀ t, m.type = some t →
      ∀ description, foundAt l r (describe t) = some description →
        ∀ v ∈ description.values, IsUnbroken v

/-! ## What is read -/

theorem isInline_of_mem_firsts (hp : parse d.combined = .ok fs) {m : Member}
    (hm : m ∈ firsts (Fragments.members fs)) : m.IsInline := by
  obtain ⟨e, he, ms, hms, hmem⟩ := mem_members_iff.1 (mem_of_mem_firsts hm)
  exact (inline_of_parse hp e he).members ms hms m hmem

/-- Where no name shows a value with a line break, properties mention none. -/
theorem hasPlainValues_of_shown (h : ∀ v, l.IsShownValue r v → IsUnbroken v) :
    l.HasPlainValues r name := by
  intro d fs _ hp m hm _ t ht description hdescribe v hv
  exact h v ((tells_describe (isInline_of_mem_firsts hp hm t ht) hdescribe).values v hv)

theorem isUnbroken_parent (hp : parse d.combined = .ok fs) {main : Interface}
    (hm : Fragments.mainInterface? fs = some main) {parent : String}
    (hparent : main.parent = some parent) : IsUnbroken parent := by
  obtain ⟨e, he, hi⟩ := Option.bind_eq_some_iff.1 hm
  have hmade := inline_of_parse hp e (List.mem_of_head? he)
  exact isUnbroken_of_isIdentifier (hmade.parent main hi parent hparent)

/-- The entry of a property is in one line but for the list items in its type. -/
theorem isNested_propertyEntry (hd : l.documentAt r name = .ok d)
    (hp : parse d.combined = .ok fs) (hv : l.HasPlainValues r name) {m : Member}
    (hm : m ∈ firsts (Fragments.members fs)) (hattr : m.isAttribute = true) {e : PropertyEntry}
    (he : foundAt l r (propertyEntry m) = some e) : e.IsNested := by
  have hw := wellFormed_of_parse hp m (mem_of_mem_firsts hm)
  obtain ⟨other, hn⟩ := hw.wellNamed.exists_name hattr
  obtain ⟨t, ht⟩ := hw.typed hattr
  obtain ⟨description, hdescribe, rfl, -⟩ := exists_description_of_propertyEntry hattr ht he
  have htells := tells_describe (isInline_of_mem_firsts hp hm t ht) hdescribe
  have hname : (PropertyEntry.ofMember m (description.render 2)).name = other :=
    nameOrEmpty_of_name hn
  refine ⟨hname ▸ isUnbroken_of_isIdentifier (hw.wellNamed.isIdentifier (.inl hattr) hn), ?_⟩
  have htext : (description.render 2).toList = description.chars listItemDepth :=
    String.toList_ofList
  change IsNested listItemDepth (description.render 2).toList
  rw [htext]
  exact Description.isNested_chars listItemDepth _ htells.words
    (hv d fs hd hp m hm hattr t ht description hdescribe)

theorem isUnbroken_event {event : String} (h : IsIdentifier (handlerLead ++ event)) :
    IsUnbroken event := by
  have hboth := isUnbroken_of_isIdentifier h
  unfold IsUnbroken at hboth ⊢
  rw [String.toList_append, List.mem_append, not_or] at hboth
  exact hboth.2

/-! ## Records -/

theorem exists_of_fragmentsOf (h : outcomeAt l r (fragmentsOf name) = .ok fs) :
    ∃ d, l.documentAt r name = .ok d ∧ parse d.combined = .ok fs := by
  unfold fragmentsOf at h
  rw [outcomeAt_then] at h
  obtain ⟨⟨d, fs'⟩, hfound, h⟩ := bind_eq_ok_iff.1 h
  dsimp only at h
  rw [outcomeAt_ofExcept_then] at h
  obtain ⟨main, -, h⟩ := bind_eq_ok_iff.1 h
  cases h
  exact ⟨d, exists_of_definitionsOf hfound⟩

theorem isUnbroken_parent_of_overview {o : Overview}
    (ho : answerAt l r (overview name) = some (.ok o)) {parent : String} {g : MemberGroups}
    (hparent : o.parent = some (parent, g)) : IsUnbroken parent := by
  rw [answerAt_overview] at ho
  obtain ⟨⟨d, fs⟩, hfound, ho⟩ := andThen_eq_ok_iff.1 ho
  obtain ⟨main, hmain, ho⟩ := andThen_eq_ok_iff.1 ho
  obtain ⟨members, -, ho⟩ := Option.bind_eq_some_iff.1 ho
  obtain ⟨found, hgroups, rfl⟩ := map_map_eq_ok_iff.1 ho
  obtain ⟨-, hp⟩ := exists_of_definitionsOf (Option.some.inj hfound)
  obtain rfl : found = some (parent, g) := hparent
  exact isUnbroken_parent hp (interfaceOf_eq_ok_iff.1 (Option.some.inj hmain))
    (exists_of_parentGroups hgroups).1

theorem isNested_ofOverview {o : Overview} (ho : answerAt l r (overview name) = some (.ok o))
    (hname : IsUnbroken name) {group : Option String} (hg : ∀ g, group = some g → IsUnbroken g)
    (hv : l.HasPlainValues r name) (experimental : Bool) :
    (InterfacePage.ofOverview o group experimental).IsNested := by
  obtain ⟨-, fs, main, hof⟩ := exists_of_overview ho
  obtain ⟨d, hd, hp⟩ := exists_of_fragmentsOf hof.fragments
  refine ⟨?_, hg, ?_, ?_, ?_, ?_⟩
  · change IsUnbroken o.name
    rw [hof.name]
    exact hname
  · intro parent hparent
    obtain ⟨⟨other, g⟩, ho', rfl⟩ := Option.map_eq_some_iff.1 hparent
    exact isUnbroken_parent_of_overview ho ho'
  · intro isStatic e he
    change e ∈ o.members.propertyList isStatic at he
    obtain ⟨m, hm, hattr, -, -, he⟩ := (mem_propertyList_iff hof.members).1 he
    exact isNested_propertyEntry hd hp hv hm hattr he
  · intro isStatic e he
    change e ∈ o.members.methodList isStatic at he
    obtain ⟨m, hm, hop, hnamed, -, rfl⟩ := (mem_methodList_iff hof.members).1 he
    have hw := (hof.wellFormed m (mem_of_mem_firsts hm)).wellNamed
    exact isUnbroken_of_isIdentifier (hw.isIdentifier (.inr hop) (name_of_isNamed hnamed))
  · intro event he
    exact isUnbroken_event (isIdentifier_of_listed_event hof (event_mem_subSelectors.2 he))

theorem isNested_eventPage {p : Request} {event : String} {found : FoundEvent}
    (hf : answerAt l r (findEvent p.interface event) = some (.ok found))
    (hname : IsUnbroken p.interface) {group : Option String}
    (hg : ∀ g, group = some g → IsUnbroken g)
    (hi : ∀ other, found.interface = some other → IsUnbroken other ∧ l.HasPlainValues r other) :
    (eventPage p event found group).IsNested := by
  obtain ⟨fs, handler, t, hfs, hhandler, -, hwith⟩ := exists_of_findEvent hf
  obtain ⟨_, -, hp⟩ := exists_of_fragmentsOf hfs
  have hevent := isUnbroken_event (isIdentifier_of_handler (wellNamed_of_parse hp) hhandler)
  by_cases hplain : ∀ other, eventInterface? t event p.interface = some other → other = baseEvent
  · rw [answerAt_withEventInterface_plain hplain] at hwith
    cases hwith
    exact ⟨hname, hevent, hg, fun other ho => (hi other ho).1, nofun,
      fun e he => absurd he List.not_mem_nil, fun _ => rfl⟩
  · push Not at hplain
    obtain ⟨other, ho, hne⟩ := hplain
    rw [answerAt_withEventInterface ho hne] at hwith
    obtain ⟨⟨d, eventFs⟩, hdefinitions, hwith⟩ := andThen_eq_ok_iff.1 hwith
    obtain ⟨properties, hproperties, hsome⟩ := Option.map_eq_some_iff.1 hwith
    cases hsome
    obtain ⟨hd, hparse⟩ := exists_of_definitionsOf (Option.some.inj hdefinitions)
    obtain ⟨entry, -, hentry⟩ := exists_entry l r
    obtain ⟨rfl, hentries⟩ := (eventPropertiesOf_eq_some_iff hentry).1 hproperties
    refine ⟨hname, hevent, hg, fun name hn => (hi name hn).1, ?_, ?_, ?_⟩
    · intro parent hparent
      obtain ⟨main, hmain, hmp⟩ := Option.bind_eq_some_iff.1 hparent
      exact isUnbroken_parent hparse hmain hmp
    · intro e he
      obtain ⟨m, hm, rfl⟩ := List.mem_map.1 he
      obtain ⟨hfirst, htests⟩ := mem_selected.1 hm
      exact isNested_propertyEntry hd hparse (hi other ho).2 hfirst
        (htests _ List.mem_cons_self) (hentries m hm)
    · intro hnone
      cases ho.symm.trans hnone

namespace Page

/-- The group that a record names. -/
def group : Page → Option String
  | interface page => page.group
  | member page => page.group
  | event page => page.group

/-- The interface of the event that a record is about. -/
def eventInterface : Page → Option String
  | event page => page.eventInterface
  | interface _ | member _ => none

/-- The interfaces of which the page of a record lists the properties. -/
def listedInterfaces : Page → List String
  | interface page => [page.interface]
  | event page => page.eventInterface.toList
  | member _ => []

end Page

/-- **What is put together for a request is in one line but for the list items in types**, if the
names that are not read are in one line. -/
theorem isNested_of_assemble {p : Request} {page : Page}
    (h : answerAt l r (assemble p) = some (.ok page)) (hname : IsUnbroken p.interface)
    (hgroup : ∀ g, page.group = some g → IsUnbroken g)
    (hevent : ∀ other, page.eventInterface = some other → IsUnbroken other)
    (hvalues : ∀ other ∈ page.listedInterfaces, l.HasPlainValues r other) : page.IsNested := by
  rw [answerAt_assemble] at h
  obtain ⟨group, -, h⟩ := andThen_eq_ok_iff.1 h
  cases hs : p.selector with
  | overview =>
    rw [answerAt_assembleIn_overview p group hs] at h
    obtain ⟨o, ho, rfl⟩ := map_map_eq_ok_iff.1 h
    obtain ⟨-, fs, main, hof⟩ := exists_of_overview ho
    have hv : l.HasPlainValues r o.name := hvalues o.name List.mem_cons_self
    exact isNested_ofOverview ho hname hgroup (hof.name ▸ hv) p.experimental
  | constructor =>
    rw [answerAt_assembleIn_constructor p group hs] at h
    obtain ⟨found, -, h⟩ := andThen_eq_ok_iff.1 h
    obtain ⟨record, -, hpage⟩ := Option.map_eq_some_iff.1 h
    cases hpage
    exact trivial
  | member name isStatic =>
    rw [answerAt_assembleIn_member p group hs] at h
    obtain ⟨found, -, h⟩ := andThen_eq_ok_iff.1 h
    obtain ⟨record, -, hpage⟩ := Option.map_eq_some_iff.1 h
    cases hpage
    exact trivial
  | event event =>
    rw [answerAt_assembleIn_event p group hs] at h
    obtain ⟨found, hfound, rfl⟩ := map_map_eq_ok_iff.1 h
    exact isNested_eventPage hfound hname hgroup fun other ho =>
      ⟨hevent other ho, hvalues other (Option.mem_toList.2 ho)⟩

/-- **Types stay in their items.**  The name of an interface, the group and the interface of an
event that a record names, and the values of enumerations that its types mention have no line
breaks.  Then the record has a text, and in the sections of its lists of properties the lines that
start with `- ` are one for each entry, in their order, each with the reference to its property.
The text of the type goes on in lines that start with a list item, indented by at least four
spaces. -/
theorem types_stay_in_items {p : Request} {page : Page}
    (h : answerAt l r (assemble p) = some (.ok page)) (hne : p.interface ≠ "")
    (hname : IsUnbroken p.interface) (hgroup : ∀ g, page.group = some g → IsUnbroken g)
    (hevent : ∀ other, page.eventInterface = some other → IsUnbroken other)
    (hvalues : ∀ other ∈ page.listedInterfaces, l.HasPlainValues r other) :
    ∃ text, renderPage .standard page = .ok text ∧
      ∀ list ∈ page.propertyLists, list.StandsIn text.toList := by
  obtain ⟨howner, hnames⟩ := renderable_of_assemble h
  obtain ⟨text, htext⟩ := exists_renderPage (howner ▸ hne) hnames
  refine ⟨text, htext, standsIn_of_renderPage ?_ htext⟩
  exact isNested_of_assemble h hname hgroup hevent hvalues

def nestedDocument : Document :=
  Sample.document "A" .interface "interface A \x7b static attribute Init i; attribute Mode m; \x7d;"

def nestedRegistry : Registry where
  documents := [("A", nestedDocument),
    ("Init", Sample.document "Init" .dictionary "dictionary Init \x7b sequence<Mode> modes; \x7d;"),
    ("Mode", Sample.document "Mode" .enumeration "enum Mode \x7b \"on\", \"off\" \x7d;")]

/-- No value of the enumeration has a line break. -/
theorem isUnbroken_of_nestedRegistry {v : String}
    (h : Library.IsShownValue { source := .outside } nestedRegistry v) : IsUnbroken v := by
  obtain ⟨name, hv⟩ := h
  have hall : ∀ x ∈ nestedRegistry.documents, ∀ u ∈ x.2.expansion.enumValues, IsUnbroken u := by
    decide +kernel
  rw [valueAt_expansionOf] at hv
  cases hd : Library.documentAt { source := .outside } nestedRegistry name with
  | error e =>
    rw [hd] at hv
    exact absurd hv List.not_mem_nil
  | ok d =>
    rw [hd] at hv
    rcases Library.kept_or_read_of_documentAt hd with hk | ⟨location, text, ht, -⟩
    · exact hall _ (Source.mem_of_lookup hk) v hv
    · cases ht

theorem nestedDocument_read :
    ∃ fs main, parse nestedDocument.combined = .ok fs ∧
      Fragments.mainInterface? fs = some main ∧ main.parent = none ∧
      ∀ isStatic, ∃ m ∈ firsts (Fragments.members fs), m.isAttribute = true ∧
        m.isStatic = isStatic ∧ m.isEventHandler = false := by
  have hread : (parse nestedDocument.combined).toOption.any (fun fs =>
      (Fragments.mainInterface? fs).any (·.parent.isNone) && [true, false].all fun isStatic =>
        (firsts (Fragments.members fs)).any fun m =>
          m.isAttribute && m.isStatic == isStatic && !m.isEventHandler) = true := by
    decide +kernel
  cases hp : parse nestedDocument.combined with
  | error e => rw [hp] at hread; cases hread
  | ok fs =>
    rw [hp] at hread
    obtain ⟨hmain, hmembers⟩ := Bool.and_eq_true_iff.1 hread
    obtain ⟨main, hm, hparent⟩ := (Option.any_eq_true _ _).1 hmain
    refine ⟨fs, main, rfl, hm, Option.isNone_iff_eq_none.1 hparent, fun isStatic => ?_⟩
    have hsome := List.all_eq_true.1 hmembers isStatic (by cases isStatic <;> decide)
    obtain ⟨m, hmem, htests⟩ := List.any_eq_true.1 hsome
    rw [Bool.and_eq_true, Bool.and_eq_true, beq_iff_eq, Bool.not_eq_true'] at htests
    exact ⟨m, hmem, htests.1.1, htests.1.2, htests.2⟩

/-- The page of an interface with a dictionary and an enumeration in its types: both lists have
entries. -/
theorem types_stay_in_items_dictionary :
    ∃ (page : Page) (text : String),
      answerAt { source := .outside } nestedRegistry
        (assemble { interface := "A", group := some "G" }) = some (.ok page) ∧
      "A" ≠ "" ∧ IsUnbroken "A" ∧ (∀ g, page.group = some g → IsUnbroken g) ∧
      (∀ other, page.eventInterface = some other → IsUnbroken other) ∧
      (∀ other ∈ page.listedInterfaces,
        Library.HasPlainValues { source := .outside } nestedRegistry other) ∧
      (∀ list ∈ page.propertyLists, list.entries ≠ []) ∧
      renderPage .standard page = .ok text ∧
      ∀ list ∈ page.propertyLists, list.StandsIn text.toList := by
  obtain ⟨fs, main, hp, hm, hparent, hmembers⟩ := nestedDocument_read
  have hd : Library.documentAt { source := .outside } nestedRegistry "A" = .ok nestedDocument :=
    Library.documentAt_of_kept rfl
  obtain ⟨o, ho⟩ := exists_overview hd hp hm hparent
    (finite_namedDictionaries finite_texts_outside _)
  have hgroup : outcomeAt { source := .outside } nestedRegistry
      (groupName { interface := "A", group := some "G" }) = .ok (some "G") := rfl
  have hpage : answerAt { source := .outside } nestedRegistry
      (assemble { interface := "A", group := some "G" }) =
        some (.ok (.interface (.ofOverview o (some "G") false))) := by
    rw [answerAt_assemble_of_group hgroup, answerAt_assembleIn_overview _ _ rfl, ho]
    rfl
  have hentries : ∀ isStatic, o.members.propertyList isStatic ≠ [] := by
    obtain ⟨-, fs', main', hof⟩ := exists_of_overview ho
    obtain ⟨d', hd', hp'⟩ := exists_of_fragmentsOf hof.fragments
    cases hd.symm.trans hd'
    cases hp.symm.trans hp'
    intro isStatic
    obtain ⟨m, hmem, hattr, hstatic, hhandler⟩ := hmembers isStatic
    obtain ⟨e, he, -⟩ := exists_propertyEntry hof.members
      (mem_propertyTests.2 ⟨hmem, hattr, hstatic, fun _ => hhandler⟩)
    exact List.ne_nil_of_mem he
  have hG : ∀ g, some "G" = some g → IsUnbroken g := by
    intro g hg
    cases hg
    decide +kernel
  have hvalues : ∀ other,
      Library.HasPlainValues { source := .outside } nestedRegistry other := fun other =>
    hasPlainValues_of_shown fun v => isUnbroken_of_nestedRegistry
  obtain ⟨text, htext, hlists⟩ := types_stay_in_items hpage (by decide) (by decide +kernel) hG nofun
    fun other _ => hvalues other
  refine ⟨_, text, hpage, by decide, by decide +kernel, hG, nofun, fun other _ => hvalues other,
    ?_, htext, hlists⟩
  exact List.forall_mem_cons.2 ⟨hentries true, List.forall_mem_singleton.2 (hentries false)⟩

end IdlDocs
