import IdlDocs.Proofs.Interfaces.Overview
import IdlDocs.Proofs.Members.Order

/-!
# Every member is listed once

The lists of an overview are chosen by tests on the first members.  The tests leave no attribute,
constant, named operation or event handler out, and take none of them twice; as the names of
first members are different, an entry can be told by its name.

* `eq_of_nameOrEmpty`: of the first members, a name is that of at most one.
* `pairwise_selectSorted`: the entries of a list are strictly increasing by name.
* `ListsOnce`: **each first member is listed once, in its own list**, and nothing else is.
* `overview_lists_once`: an overview does so, and fails only where the lists of the parent do.
-/

namespace IdlDocs

open Idl

variable {l : Library} {r : Registry} {fs : Fragments} {tests : List Test}

/-! ## Names of first members -/

theorem exists_eventName {m : Member} (h : m.isEventHandler = true) :
    ∃ event, m.eventName? = some event := by
  unfold Member.isEventHandler at h
  rw [Bool.and_eq_true, Bool.and_eq_true] at h
  exact Option.isSome_iff_exists.1 h.1.2

section Named

variable (hw : ∀ m ∈ Fragments.members fs, m.WellNamed)

include hw

theorem isNamed_of_isAttribute {m : Member} (hm : m ∈ firsts (Fragments.members fs))
    (h : m.isAttribute = true) : m.isNamed = true := by
  have hnamed := hw m (mem_of_mem_firsts hm)
  obtain ⟨name, hn⟩ := hnamed.exists_name h
  exact hnamed.isNamed_of_name hn

/-- **Of the first members, a name is that of at most one.** -/
theorem eq_of_nameOrEmpty {a b : Member} (ha : a ∈ firsts (Fragments.members fs))
    (hb : b ∈ firsts (Fragments.members fs)) (hna : a.isNamed = true) (hnb : b.isNamed = true)
    (h : a.nameOrEmpty = b.nameOrEmpty) : a = b := by
  refine eq_of_mem_firsts ha hb ?_
  rw [identity_of_name hw ha (name_of_isNamed hna),
    identity_of_name hw hb (name_of_isNamed hnb), h]

theorem nodup_names (h : ∀ m ∈ selected fs tests, m.isNamed = true) :
    ((selected fs tests).map Member.nameOrEmpty).Nodup := by
  have hfirsts : (firsts (Fragments.members fs)).Nodup := (nodup_firsts _).of_map _
  rw [selected_eq] at h ⊢
  refine List.Nodup.map_on (fun a ha b hb => ?_) (hfirsts.filter _)
  exact eq_of_nameOrEmpty hw (List.mem_of_mem_filter ha) (List.mem_of_mem_filter hb) (h a ha)
    (h b hb)

/-- **The entries of a list are strictly increasing by name.** -/
theorem pairwise_selectSorted {α : Type} {f : Member → α} {key : α → String}
    (hkey : ∀ m, key (f m) = m.nameOrEmpty) (h : ∀ m ∈ selected fs tests, m.isNamed = true) :
    ((((selectSorted fs tests).map (·.map f)).getD []).map key).Pairwise
      fun a b => compareNames a b = .lt := by
  have hnodup := nodup_names hw h
  unfold selectSorted select
  cases hs : selected fs tests with
  | nil => exact .nil
  | cons m ms =>
    rw [hs] at hnodup
    have hnames : key ∘ f = Member.nameOrEmpty := funext hkey
    show (((sortByName (m :: ms)).map f).map key).Pairwise _
    rw [List.map_map, hnames]
    exact pairwise_lt_mergeSort Member.nameOrEmpty hnodup

end Named

/-! ## Entries told by their names -/

section Entries

variable {α : Type} {key : α → String} {entries : List α}

theorem nodup_of_pairwise_lt {names : List String}
    (h : names.Pairwise fun a b => compareNames a b = .lt) : names.Nodup := by
  refine h.imp ?_
  rintro a _ hlt rfl
  have hself : compareNames a a = .eq := Std.ReflCmp.compare_self
  rw [hself] at hlt
  cases hlt

theorem filter_key_of_not_mem {name : String} (h : ∀ e ∈ entries, key e ≠ name) :
    entries.filter (key · == name) = [] :=
  List.filter_eq_nil_iff.2 fun e he => by simpa using h e he

theorem filter_key_of_mem (h : (entries.map key).Nodup) {e : α} (he : e ∈ entries) :
    entries.filter (key · == key e) = [e] := by
  induction entries with
  | nil => cases he
  | cons x entries ih =>
    rw [List.map_cons, List.nodup_cons] at h
    obtain ⟨hx, hrest⟩ := h
    rcases List.mem_cons.1 he with rfl | he
    · rw [List.filter_cons_of_pos (by simp), filter_key_of_not_mem]
      intro y hy hsame
      exact hx (hsame ▸ List.mem_map_of_mem hy)
    · have hne : key x ≠ key e := by
        intro hsame
        exact hx (hsame ▸ List.mem_map_of_mem he)
      rw [List.filter_cons_of_neg (by simpa using hne), ih hrest he]

/-- In an increasing list a name is that of one entry, or of none. -/
theorem filter_key_eq_ite {p : Prop} [Decidable p] {name : String} {e : α}
    (h : (entries.map key).Pairwise fun a b => compareNames a b = .lt) (hname : key e = name)
    (hmem : p → e ∈ entries) (hnot : ¬p → ∀ x ∈ entries, key x ≠ name) :
    entries.filter (key · == name) = if p then [e] else [] := by
  split
  · next hp =>
    rw [← hname]
    exact filter_key_of_mem (nodup_of_pairwise_lt h) (hmem hp)
  · next hp => exact filter_key_of_not_mem (hnot hp)

end Entries

/-! ## The lists -/

/-- Each first member is listed once, in its own list, and nothing else is listed. -/
structure ListsOnce (l : Library) (r : Registry) (fs : Fragments) (g : MemberGroups)
    (events : List String) : Prop where
  /-- An attribute or a constant, in the list of its being static. -/
  property : ∀ m ∈ firsts (Fragments.members fs), m.isAttribute = true →
    m.isEventHandler = false → ∃ e, foundAt l r (propertyEntry m) = some e ∧ ∀ isStatic,
      (g.propertyList isStatic).filter (·.name == m.nameOrEmpty) =
        if isStatic = m.isStatic then [e] else []
  /-- An operation with a name, in the list of its being static. -/
  method : ∀ m ∈ firsts (Fragments.members fs), m.isOperation = true → m.isNamed = true →
    ∀ isStatic, (g.methodList isStatic).filter (·.name == m.nameOrEmpty) =
      if isStatic = m.isStatic then [MethodEntry.ofMember m] else []
  /-- An event handler, by its name without the lead. -/
  event : ∀ m ∈ firsts (Fragments.members fs), m.isEventHandler = true →
    ∃ event, m.name = some (handlerLead ++ event) ∧ events.count event = 1
  only_methods : ∀ isStatic, ∀ e ∈ g.methodList isStatic,
    ∃ m ∈ firsts (Fragments.members fs), m.isOperation = true ∧ m.isNamed = true ∧
      m.isStatic = isStatic ∧ MethodEntry.ofMember m = e
  only_events : ∀ event ∈ events, ∃ m ∈ firsts (Fragments.members fs),
    m.isEventHandler = true ∧ m.name = some (handlerLead ++ event)
  /-- A list is absent where it would be empty. -/
  absent : (g.staticProperties = none ↔ g.propertyList true = []) ∧
    (g.properties = none ↔ g.propertyList false = []) ∧
    (g.staticMethods = none ↔ g.methodList true = []) ∧
    (g.methods = none ↔ g.methodList false = [])
  properties_increasing : ∀ isStatic,
    ((g.propertyList isStatic).map (·.name)).Pairwise fun a b => compareNames a b = .lt
  methods_increasing : ∀ isStatic,
    ((g.methodList isStatic).map (·.name)).Pairwise fun a b => compareNames a b = .lt
  events_increasing : events.Pairwise fun a b => compareNames a b = .lt

/-- A list that would be empty is absent. -/
theorem selectSorted_eq_none_iff {α : Type} {f : Member → α} :
    (selectSorted fs tests).map (·.map f) = none ↔
      ((selectSorted fs tests).map (·.map f)).getD [] = [] := by
  constructor
  · intro h
    rw [h]
    rfl
  · intro h
    unfold selectSorted select at h ⊢
    cases hs : selected fs tests with
    | nil => rfl
    | cons m ms =>
      rw [hs] at h
      have hlength := congrArg List.length h
      simp [sortByName] at hlength

section Lists

variable (hw : ∀ m ∈ Fragments.members fs, m.WellNamed) {g : MemberGroups}
  (hg : foundAt l r (memberGroups fs) = some g)

include hw hg

theorem pairwise_propertyList (isStatic : Bool) :
    ((g.propertyList isStatic).map (·.name)).Pairwise fun a b => compareNames a b = .lt := by
  obtain ⟨entry, rfl, hname, -⟩ := exists_listedBy hg
  rw [propertyList_ofEntries]
  refine pairwise_selectSorted hw hname fun m hm => ?_
  obtain ⟨hfirst, hattr, -⟩ := mem_propertyTests.1 hm
  exact isNamed_of_isAttribute hw hfirst hattr

theorem pairwise_methodList (isStatic : Bool) :
    ((g.methodList isStatic).map (·.name)).Pairwise fun a b => compareNames a b = .lt := by
  obtain ⟨entry, rfl, -, -⟩ := exists_listedBy hg
  rw [methodList_ofEntries]
  refine pairwise_selectSorted hw (fun _ => rfl) fun m hm => ?_
  obtain ⟨-, -, hnamed, -⟩ := mem_methodTests.1 hm
  exact hnamed

omit hw hg in
theorem map_eventName? {ms : List Member} (h : ∀ m ∈ ms, m.isEventHandler = true) :
    (ms.filterMap Member.eventName?).map (handlerLead ++ ·) = ms.map Member.nameOrEmpty := by
  induction ms with
  | nil => rfl
  | cons m ms ih =>
    obtain ⟨event, hevent⟩ := exists_eventName (h m List.mem_cons_self)
    have hname := nameOrEmpty_of_name (eventName?_eq_some_iff.1 hevent)
    rw [List.filterMap_cons_some hevent, List.map_cons, List.map_cons, hname,
      ih fun a ha => h a (List.mem_cons_of_mem m ha)]

omit hg in
theorem nodup_eventNames : (eventNames fs).Nodup := by
  have hhandler : ∀ m ∈ selected fs [Member.isEventHandler], m.isEventHandler = true := by
    intro m hm
    exact (mem_selected.1 hm).2 _ List.mem_cons_self
  have hnodup := nodup_names hw fun m hm =>
    isNamed_of_isAttribute hw (mem_selected.1 hm).1 (isAttribute_of_isEventHandler (hhandler m hm))
  rw [← map_eventName? hhandler] at hnodup
  exact hnodup.of_map _

theorem filter_propertyList {m : Member} (hm : m ∈ firsts (Fragments.members fs))
    (hattr : m.isAttribute = true) (hhandler : m.isEventHandler = false) :
    ∃ e, foundAt l r (propertyEntry m) = some e ∧ ∀ isStatic,
      (g.propertyList isStatic).filter (·.name == m.nameOrEmpty) =
        if isStatic = m.isStatic then [e] else [] := by
  have hlisted := mem_propertyTests.2 ⟨hm, hattr, rfl, fun _ => hhandler⟩
  obtain ⟨e, -, he⟩ := exists_propertyEntry hg hlisted
  refine ⟨e, he, fun isStatic => ?_⟩
  refine filter_key_eq_ite (pairwise_propertyList hw hg isStatic) (name_of_propertyEntry he)
    (fun hstatic =>
      (mem_propertyList_iff hg).2 ⟨m, hm, hattr, hstatic.symm, fun _ => hhandler, he⟩) ?_
  intro hstatic e' he' hsame
  obtain ⟨m', hm', hattr', rfl, -, hfound⟩ := (mem_propertyList_iff hg).1 he'
  rw [name_of_propertyEntry hfound] at hsame
  have heq := eq_of_nameOrEmpty hw hm' hm (isNamed_of_isAttribute hw hm' hattr')
    (isNamed_of_isAttribute hw hm hattr) hsame
  exact hstatic (congrArg Member.isStatic heq)

theorem filter_methodList {m : Member} (hm : m ∈ firsts (Fragments.members fs))
    (hop : m.isOperation = true) (hnamed : m.isNamed = true) (isStatic : Bool) :
    (g.methodList isStatic).filter (·.name == m.nameOrEmpty) =
      if isStatic = m.isStatic then [MethodEntry.ofMember m] else [] := by
  refine filter_key_eq_ite (pairwise_methodList hw hg isStatic) rfl
    (fun hstatic => (mem_methodList_iff hg).2 ⟨m, hm, hop, hnamed, hstatic.symm, rfl⟩) ?_
  intro hstatic e he hsame
  obtain ⟨m', hm', -, hnamed', rfl, rfl⟩ := (mem_methodList_iff hg).1 he
  exact hstatic (congrArg Member.isStatic (eq_of_nameOrEmpty hw hm' hm hnamed' hnamed hsame))

omit hw hg in
theorem mem_eventNames_iff_exists {event : String} :
    event ∈ eventNames fs ↔ ∃ m ∈ firsts (Fragments.members fs),
      m.isEventHandler = true ∧ m.name = some (handlerLead ++ event) := by
  unfold eventNames
  rw [List.mem_filterMap]
  refine exists_congr fun m => ?_
  rw [mem_selected, List.forall_mem_singleton, eventName?_eq_some_iff, and_assoc]

/-- **The lists of a set of fragments, and its events.** -/
theorem listsOnce : ListsOnce l r fs g (sortNames (eventNames fs)) where
  property _ hm hattr hhandler := filter_propertyList hw hg hm hattr hhandler
  method _ hm hop hnamed := filter_methodList hw hg hm hop hnamed
  event m hm hhandler := by
    obtain ⟨event, hevent⟩ := exists_eventName hhandler
    have hname := eventName?_eq_some_iff.1 hevent
    have hperm := List.mergeSort_perm (eventNames fs) namesInOrder
    refine ⟨event, hname, List.count_eq_one_of_mem ?_ (hperm.mem_iff.2 ?_)⟩
    · exact hperm.nodup_iff.2 (nodup_eventNames hw)
    · exact mem_eventNames_iff_exists.2 ⟨m, hm, hhandler, hname⟩
  only_methods isStatic e he := (mem_methodList_iff hg).1 he
  only_events event he :=
    mem_eventNames_iff_exists.1 ((List.mergeSort_perm (eventNames fs) namesInOrder).mem_iff.1 he)
  absent := by
    obtain ⟨entry, rfl, -, -⟩ := exists_listedBy hg
    exact ⟨selectSorted_eq_none_iff, selectSorted_eq_none_iff, selectSorted_eq_none_iff,
      selectSorted_eq_none_iff⟩
  properties_increasing := pairwise_propertyList hw hg
  methods_increasing := pairwise_methodList hw hg
  events_increasing := by
    have hsorted := pairwise_lt_mergeSort id (l := eventNames fs)
      (by rw [List.map_id]; exact nodup_eventNames hw)
    rw [List.map_id] at hsorted
    exact hsorted

end Lists

/-- **An overview lists each first member once**, where the lists of the parent can be had.  Its
lists come to an end where fields name finitely many dictionaries. -/
theorem overview_lists_once {name : String} {d : Document} {main : Interface}
    (hd : l.documentAt r name = .ok d) (hp : parse d.combined = .ok fs)
    (hm : Fragments.mainInterface? fs = some main) :
    ∃ events,
      (answerAt l r (overview name) =
        (foundAt l r (memberGroups fs)).bind fun g =>
          (answerAt l r (parentGroups d main)).map (·.map fun parent =>
            { name, parent, members := g, events
              isSecure := main.isSecure
              hasConstructor := hasConstructor fs })) ∧
      (∀ g, foundAt l r (memberGroups fs) = some g → ListsOnce l r fs g events) ∧
      ((l.namedDictionaries r).Finite → ∃ g, foundAt l r (memberGroups fs) = some g) := by
  exact ⟨_, answerAt_overview_of_main hd hp hm, fun g hg => listsOnce (wellNamed_of_parse hp) hg,
    (Ends.memberGroups fs).exists_found⟩

/-! ## An interface in three definitions -/

/-- Members that are declared in the order of their names stay in it. -/
theorem names_selectSorted {α : Type} {f : Member → α} {key : α → String}
    (hkey : ∀ m, key (f m) = m.nameOrEmpty) {names : List String}
    (hnames : (selected fs tests).map Member.nameOrEmpty = names)
    (hsorted : names.Pairwise fun a b => namesInOrder a b = true) :
    (((selectSorted fs tests).map (·.map f)).getD []).map key = names := by
  subst hnames
  have hsame : key ∘ f = Member.nameOrEmpty := funext hkey
  unfold selectSorted select
  cases hs : selected fs tests with
  | nil => rfl
  | cons m ms =>
    rw [hs] at hsorted
    show ((sortByName (m :: ms)).map f).map key = _
    have hkept : sortByName (m :: ms) = m :: ms :=
      List.mergeSort_of_pairwise (List.pairwise_map.1 hsorted)
    rw [hkept, List.map_map, hsame]

/-- The overview of an interface with an extension and a mixin lists each member once: the constant
with what is static, the attribute of the mixin with that of the extension, and no overload that is
hidden.  Its event handler is an event and no property. -/
theorem overview_lists_once_overloaded :
    ∃ (r : Registry) (fs : Fragments) (o : Overview),
      Library.documentAt { source := .outside } r "A" = .ok overloadedDocument ∧
      parse overloadedDocument.combined = .ok fs ∧
      answerAt { source := .outside } r (overview "A") = some (.ok o) ∧
      ListsOnce { source := .outside } r fs o.members o.events ∧
      (o.members.propertyList true).map (·.name) = ["c"] ∧
      (o.members.propertyList false).map (·.name) = ["a", "b"] ∧
      (o.members.methodList true).map (·.name) = ["f"] ∧
      (o.members.methodList false).map (·.name) = ["g"] ∧
      o.events = ["end"] ∧ o.hasConstructor = true := by
  have hread : (parse overloadedDocument.combined).toOption.any (fun fs =>
      (Fragments.mainInterface? fs).any (·.parent.isNone) &&
      (selected fs (propertyTests true)).map Member.nameOrEmpty == ["c"] &&
      (selected fs (propertyTests false)).map Member.nameOrEmpty == ["a", "b"] &&
      (selected fs (methodTests true)).map Member.nameOrEmpty == ["f"] &&
      (selected fs (methodTests false)).map Member.nameOrEmpty == ["g"] &&
      eventNames fs == ["end"] && hasConstructor fs) = true := by
    rw [parse_combined_of_spells rfl (by repeat' constructor)]
    decide +kernel
  obtain ⟨fs, hfs, htests⟩ := (Option.any_eq_true _ _).1 hread
  have hp := eq_ok_of_toOption hfs
  simp only [Bool.and_eq_true, beq_iff_eq, Option.any_eq_true] at htests
  obtain ⟨⟨⟨⟨⟨⟨⟨main, hm, hparent⟩, hstatics⟩, hplains⟩, hstaticMethods⟩, hmethods⟩, hevents⟩,
    hconstructor⟩ := htests
  have hd : Library.documentAt { source := .outside }
      { documents := [("A", overloadedDocument)] } "A" = .ok overloadedDocument := rfl
  have hnone : answerAt { source := .outside } { documents := [("A", overloadedDocument)] }
      (parentGroups overloadedDocument main) = some (.ok none) := by
    unfold parentGroups
    rw [Option.isNone_iff_eq_none.1 hparent]
    rfl
  obtain ⟨events, ho, hlists, hends⟩ := overview_lists_once hd hp hm
  obtain ⟨g, hg⟩ := hends (finite_namedDictionaries finite_texts_outside _)
  rw [hg, hnone] at ho
  obtain ⟨-, fs', main', hof⟩ := exists_of_overview ho
  obtain rfl : fs = fs' :=
    Except.ok.inj ((outcomeAt_fragmentsOf hd hp (hm ▸ rfl)).symm.trans hof.fragments)
  obtain ⟨entry, rfl, hname, -⟩ := exists_listedBy hg
  have hmethod : ∀ m, (MethodEntry.ofMember m).name = m.nameOrEmpty := fun _ => rfl
  refine ⟨_, fs, _, hd, hp, ho, hlists _ hg, ?_, ?_, ?_, ?_, ?_, hconstructor⟩
  · rw [propertyList_ofEntries]
    exact names_selectSorted hname hstatics (by simp)
  · rw [propertyList_ofEntries]
    exact names_selectSorted hname hplains (by decide +kernel)
  · rw [methodList_ofEntries]
    exact names_selectSorted hmethod hstaticMethods (by simp)
  · rw [methodList_ofEntries]
    exact names_selectSorted hmethod hmethods (by simp)
  · rw [hof.events, hevents]
    exact List.mergeSort_singleton "end"

end IdlDocs
