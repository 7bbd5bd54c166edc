import IdlDocs.Proofs.Members.Firsts
import IdlDocs.Proofs.Registry.Failing

/-!
# What is listed can be looked up

The index of an interface lists its methods, its properties and its events by other tests
than those that find a single one.  Both choose among the first members only, and of these a
name is that of at most one.  So both find the same.

* `mem_index_iff`: an entry of an index is a member that is found by its name.
* `mem_eventNames_iff`: an event is listed where its handler is found.
* `listed_iff_found`: **what the index of an interface lists is what can be looked up**, and
  the lookup of anything else says that it is unknown.
-/

namespace IdlDocs

open Idl

/-! ## Members -/

variable {fs : Fragments}

theorem isAttribute_of_isEventHandler {m : Member} (h : m.isEventHandler = true) :
    m.isAttribute = true := by
  unfold Member.isEventHandler at h
  unfold Member.isAttribute
  rw [Bool.and_eq_true, Bool.and_eq_true] at h
  rw [h.1.1]
  rfl

/-- An index that is chosen by the name and another property lists the members that are found
by their names and have this property. -/
theorem mem_index_iff (hw : ∀ m ∈ Fragments.members fs, m.WellNamed) {tests : List Test}
    {p : Member → Prop} (hp : ∀ m, (∀ t ∈ tests, t m = true) ↔ m.isNamed = true ∧ p m)
    {name : String} {isStatic : Bool} :
    ⟨name, isStatic⟩ ∈ (selected fs tests).map IndexEntry.ofMember ↔
      ∃ m, lookUp? fs name isStatic = some m ∧ p m := by
  rw [List.mem_map]
  constructor
  · rintro ⟨m, hm, he⟩
    obtain ⟨hfirst, htests⟩ := mem_selected.1 hm
    obtain ⟨hnamed, hpm⟩ := (hp m).1 htests
    obtain ⟨hname, hstatic⟩ := IndexEntry.mk.inj he
    refine ⟨m, (lookUp?_eq_some_iff hw).2 ⟨hfirst, hstatic, ?_⟩, hpm⟩
    -- A member without a name is listed under the empty one, which the tests leave out.
    cases hn : m.name with
    | some n =>
      unfold Member.nameOrEmpty at hname
      rw [hn] at hname
      exact congrArg some hname
    | none =>
      unfold Member.isNamed Member.nameOrEmpty at hnamed
      rw [hn] at hnamed
      exact absurd hnamed (by decide)
  · rintro ⟨m, hm, hpm⟩
    obtain ⟨hfirst, hstatic, hname⟩ := (lookUp?_eq_some_iff hw).1 hm
    have hnamed := (hw m (mem_of_mem_firsts hfirst)).isNamed_of_name hname
    refine ⟨m, mem_selected.2 ⟨hfirst, (hp m).2 ⟨hnamed, hpm⟩⟩, ?_⟩
    unfold IndexEntry.ofMember Member.nameOrEmpty
    rw [hname, hstatic]
    rfl

theorem mem_methods_iff (hw : ∀ m ∈ Fragments.members fs, m.WellNamed) {name : String}
    {isStatic : Bool} :
    ⟨name, isStatic⟩ ∈ (selected fs [Member.isOperation, Member.isNamed]).map
        IndexEntry.ofMember ↔
      ∃ m, lookUp? fs name isStatic = some m ∧ m.isOperation = true := by
  refine mem_index_iff hw fun m => ?_
  rw [List.forall_mem_cons, List.forall_mem_singleton]
  exact And.comm

theorem mem_properties_iff (hw : ∀ m ∈ Fragments.members fs, m.WellNamed) {name : String}
    {isStatic : Bool} :
    ⟨name, isStatic⟩ ∈ (selected fs [Member.isAttribute, Member.isNamed,
        Test.not Member.isEventHandler]).map IndexEntry.ofMember ↔
      ∃ m, lookUp? fs name isStatic = some m ∧
        m.isAttribute = true ∧ m.isEventHandler = false := by
  refine mem_index_iff hw fun m => ?_
  rw [List.forall_mem_cons, List.forall_mem_cons, List.forall_mem_singleton]
  unfold Test.not
  rw [Bool.not_eq_true']
  exact and_left_comm

theorem hasConstructor_iff :
    hasConstructor fs = true ↔ ∃ m, firstSelected? fs [Member.isConstructor] = some m := by
  rw [exists_firstSelected?_iff]
  unfold hasConstructor
  rw [Bool.not_eq_true', List.isEmpty_eq_false_iff_exists_mem]

/-! ## Events -/

theorem eventName?_eq_some_iff {m : Member} {event : String} :
    m.eventName? = some event ↔ m.name = some (handlerLead ++ event) := by
  unfold Member.eventName?
  cases m.name with
  | none => exact ⟨nofun, nofun⟩
  | some name =>
    change ((Text.dropLead? handlerLead.toList name.toList).bind
      fun r => some (String.ofList r)) = some event ↔ _
    rw [Option.bind_eq_some_iff, Option.some_inj]
    constructor
    · rintro ⟨r, hr, he⟩
      rw [← Option.some.inj he]
      refine String.toList_inj.1 ?_
      rw [Text.eq_append_of_dropLead? hr, String.toList_append, String.toList_ofList]
    · rintro rfl
      refine ⟨event.toList, ?_, congrArg some String.ofList_toList⟩
      rw [String.toList_append]
      exact Text.dropLead?_append _ _

def handler? (fs : Fragments) (event : String) : Option Member :=
  firstSelected? fs [Member.isEventHandler, Member.hasName (handlerLead ++ event)]

/-- **An event is listed where its handler is found.** -/
theorem mem_eventNames_iff {event : String} :
    event ∈ eventNames fs ↔ ∃ m, handler? fs event = some m := by
  unfold eventNames handler?
  rw [List.mem_filterMap, exists_firstSelected?_iff]
  refine exists_congr fun m => ?_
  rw [mem_selected, List.forall_mem_singleton, mem_selected, List.forall_mem_cons,
    List.forall_mem_singleton, eventName?_eq_some_iff, hasName_iff, and_assoc]

/-! ## Lookups -/

variable {l : Library} {r : Registry} {interface : String}

theorem outcomeAt_definitionsOf {d : Document} (hd : l.documentAt r interface = .ok d)
    (hp : parse d.combined = .ok fs) :
    outcomeAt l r (Registry.definitionsOf interface) = .ok (d, fs) := by
  unfold Registry.definitionsOf
  rw [outcomeAt_then, outcomeAt_document, hd]
  change outcomeAt l _ (liftM (parseFor interface d.combined) >>= _) = _
  rw [outcomeAt_then]
  change (parseFor interface d.combined).bind _ = _
  unfold parseFor
  rw [hp]
  rfl

/-- The definitions of an interface are there where its document is, can be read and starts
with a definition that has members. -/
theorem outcomeAt_fragmentsOf {d : Document} (hd : l.documentAt r interface = .ok d)
    (hp : parse d.combined = .ok fs) (hm : (Fragments.mainInterface? fs).isSome) :
    outcomeAt l r (fragmentsOf interface) = .ok fs := by
  obtain ⟨main, hmain⟩ := Option.isSome_iff_exists.1 hm
  unfold fragmentsOf
  rw [outcomeAt_then, outcomeAt_definitionsOf hd hp]
  change outcomeAt l _ (liftM (interfaceOf interface fs) >>= _) = _
  rw [outcomeAt_then]
  change (interfaceOf interface fs).bind _ = _
  unfold interfaceOf
  rw [hmain]
  rfl

/-- With the definitions at hand a lookup looks no further than at them. -/
theorem outcomeAt_fragmentsOf_then {α : Type} (hf : outcomeAt l r (fragmentsOf interface) = .ok fs)
    (f : Fragments → Attempt α) :
    outcomeAt l r (fragmentsOf interface >>= f) =
      outcomeAt l (registryAfter l r (fragmentsOf interface).result) (f fs) := by
  rw [outcomeAt_then, hf]
  rfl

theorem answerAt_fragmentsOf_then {α : Type} (hf : outcomeAt l r (fragmentsOf interface) = .ok fs)
    (f : Fragments → Inquiry α) :
    answerAt l r (liftM (fragmentsOf interface) >>= f) =
      answerAt l (registryAfter l r (fragmentsOf interface).result) (f fs) := by
  rw [answerAt_then, answerAt_ofAttempt, hf]
  rfl

def indexOf (fs : Fragments) : MemberIndex where
  properties := (selected fs
    [Member.isAttribute, Member.isNamed, Test.not Member.isEventHandler]).map IndexEntry.ofMember
  hasConstructor := hasConstructor fs
  methods := (selected fs [Member.isOperation, Member.isNamed]).map IndexEntry.ofMember
  events := eventNames fs

theorem outcomeAt_memberIndex (hf : outcomeAt l r (fragmentsOf interface) = .ok fs) :
    outcomeAt l r (memberIndex interface) = .ok (indexOf fs) :=
  outcomeAt_fragmentsOf_then hf _

theorem outcomeAt_findMember (hf : outcomeAt l r (fragmentsOf interface) = .ok fs)
    (name : String) (isStatic : Bool) :
    outcomeAt l r (findMember interface name isStatic) =
      foundMember interface name fs (lookUp? fs name isStatic) :=
  outcomeAt_fragmentsOf_then hf _

theorem outcomeAt_findConstructor (hf : outcomeAt l r (fragmentsOf interface) = .ok fs) :
    outcomeAt l r (findConstructor interface) =
      foundMember interface "constructor" fs (firstSelected? fs [Member.isConstructor]) :=
  outcomeAt_fragmentsOf_then hf _

theorem exists_foundMember_iff {name : String} {found : Option Member} (p : Member → Prop) :
    (∃ x, foundMember interface name fs found = .ok x ∧ p x.member) ↔
      ∃ m, found = some m ∧ p m := by
  cases found with
  | none =>
    constructor
    · rintro ⟨x, hx, -⟩
      cases hx
    · rintro ⟨a, ha, -⟩
      cases ha
  | some m =>
    constructor
    · rintro ⟨x, hx, hpx⟩
      cases hx
      exact ⟨m, rfl, hpx⟩
    · rintro ⟨a, ha, hpa⟩
      cases ha
      exact ⟨_, rfl, hpa⟩

theorem unknownMember_of_foundMember {name : String} {found : Option Member} {e : Failure}
    (h : foundMember interface name fs found = .error e) : e = .unknownMember interface name := by
  cases found with
  | none => cases h; rfl
  | some m => cases h

/-! ## Lookups of events -/

/-- With its handler at hand an event fails only where a document cannot be loaded. -/
theorem fails_withEventInterface (e : FoundEvent) :
    InquiryFails Failure.IsLoading (withEventInterface e) := by
  unfold withEventInterface
  cases e.interface with
  | none => exact .ok _
  | some name =>
    by_cases hb : name == baseEvent
    · simp only [hb, if_true]
      exact .ok _
    · simp only [hb]
      refine (InquiryFails.ofAttempt (.definitionsOf name)).andThen fun found => ?_
      exact (InquiryFails.ofSearch (propertyEntries _)).andThen fun _ => .ok _

/-- **The lookup of an event says that it is unknown where there is no handler**, and nowhere
else. -/
theorem unknownEvent_iff (hf : outcomeAt l r (fragmentsOf interface) = .ok fs)
    (event : String) :
    (∃ i e, answerAt l r (findEvent interface event) = some (.error (.unknownEvent i e))) ↔
      handler? fs event = none := by
  unfold findEvent handler?
  rw [answerAt_fragmentsOf_then hf]
  dsimp only
  cases firstSelected? fs [Member.isEventHandler, Member.hasName (handlerLead ++ event)] with
  | none => exact ⟨fun _ => rfl, fun _ => ⟨interface, event, rfl⟩⟩
  | some handler =>
    refine ⟨fun ⟨i, e, h⟩ => ?_, nofun⟩
    have hload : Failure.IsLoading (.unknownEvent i e) :=
      ((InquiryFails.ofAttempt .tables).andThen fun t => fails_withEventInterface _) l _ _ h
    exact hload.elim

/-! ## Listings and lookups -/

/-- **What the index of an interface lists is what can be looked up.**  Its methods are the
names under which operations are found, its properties those of attributes and constants that
are no event handlers, and its events those that are not said to be unknown.  A member that is
not found is said to be unknown. -/
theorem listed_iff_found {d : Document} (hd : l.documentAt r interface = .ok d)
    (hp : parse d.combined = .ok fs) (hm : (Fragments.mainInterface? fs).isSome) :
    ∃ index : MemberIndex, outcomeAt l r (memberIndex interface) = .ok index ∧
      (∀ name isStatic, ⟨name, isStatic⟩ ∈ index.methods ↔
        ∃ found, outcomeAt l r (findMember interface name isStatic) = .ok found ∧
          found.member.isOperation = true) ∧
      (∀ name isStatic, ⟨name, isStatic⟩ ∈ index.properties ↔
        ∃ found, outcomeAt l r (findMember interface name isStatic) = .ok found ∧
          found.member.isAttribute = true ∧ found.member.isEventHandler = false) ∧
      (index.hasConstructor = true ↔
        ∃ found, outcomeAt l r (findConstructor interface) = .ok found) ∧
      (∀ event, event ∈ index.events ↔
        ¬∃ i e, answerAt l r (findEvent interface event) =
          some (.error (.unknownEvent i e))) ∧
      (∀ name isStatic e, outcomeAt l r (findMember interface name isStatic) = .error e →
        e = .unknownMember interface name) ∧
      ∀ e, outcomeAt l r (findConstructor interface) = .error e →
        e = .unknownMember interface "constructor" := by
  have hf := outcomeAt_fragmentsOf hd hp hm
  have hw := wellNamed_of_parse hp
  refine ⟨_, outcomeAt_memberIndex hf, ?_, ?_, ?_, ?_, ?_, ?_⟩
  · intro name isStatic
    rw [outcomeAt_findMember hf]
    exact (mem_methods_iff hw).trans
      (exists_foundMember_iff fun m => m.isOperation = true).symm
  · intro name isStatic
    rw [outcomeAt_findMember hf]
    exact (mem_properties_iff hw).trans
      (exists_foundMember_iff fun m => m.isAttribute = true ∧ m.isEventHandler = false).symm
  · rw [outcomeAt_findConstructor hf]
    constructor
    · intro h
      obtain ⟨m, hm⟩ := hasConstructor_iff.1 h
      rw [hm]
      exact ⟨_, rfl⟩
    · rintro ⟨x, hx⟩
      obtain ⟨m, hm, -⟩ := (exists_foundMember_iff fun _ => True).1 ⟨x, hx, trivial⟩
      exact hasConstructor_iff.2 ⟨m, hm⟩
  · intro event
    rw [unknownEvent_iff hf]
    exact mem_eventNames_iff.trans Option.ne_none_iff_exists'.symm
  · intro name isStatic e he
    rw [outcomeAt_findMember hf] at he
    exact unknownMember_of_foundMember he
  · intro e he
    rw [outcomeAt_findConstructor hf] at he
    exact unknownMember_of_foundMember he

/-- The source text of a document, by the characters of its texts.  Taking these from long texts is
slow. -/
theorem parse_combined_of_spells {d : Document} {texts : List String} {spelled : List (List Char)}
    (hd : d.texts = texts) (h : List.Forall₂ (fun t cs => t = String.ofList cs) texts spelled) :
    parse d.combined = parseChars (fillWildcards (['\n'].intercalate spelled)) := by
  have hchars : texts.map String.toList = spelled := by
    clear hd
    induction h with
    | nil => rfl
    | cons ht _ ih => rw [List.map_cons, ih, ht, String.toList_ofList]
  unfold parse Document.combined
  rw [String.toList_intercalate, hd, hchars]
  rfl

/-- The document of an interface with all kinds of members.  An overload of its static operation
stands behind it, one more in an extension, and an operation of a mixin has the name of its event
handler. -/
def overloadedDocument : Document :=
  { kind := .interface
    text := "interface A \x7b constructor(); static any f(); any f(); attribute EventHandler onend; \x7d;"
    extensions :=
      ["partial interface A \x7b const long c = 1; attribute long a; any g(); any f(any x); \x7d;"]
    mixins := [⟨some "M", "interface mixin M \x7b attribute long b; any onend(); \x7d;"⟩] }

/-- The index of this interface lists each name once, also where it has an extension and a mixin.
What is listed is found, and the hidden overloads are not. -/
theorem listed_iff_found_overloaded :
    ∃ (r : Registry) (fs : Fragments) (index : MemberIndex),
      Library.documentAt { source := .outside } r "A" = .ok overloadedDocument ∧
      parse overloadedDocument.combined = .ok fs ∧ (Fragments.mainInterface? fs).isSome ∧
      outcomeAt { source := .outside } r (memberIndex "A") = .ok index ∧
      index = {
        properties := [⟨"c", true⟩, ⟨"a", false⟩, ⟨"b", false⟩]
        hasConstructor := true
        methods := [⟨"f", true⟩, ⟨"g", false⟩]
        events := ["end"] } ∧
      (∃ found, outcomeAt { source := .outside } r (findMember "A" "f" true) = .ok found ∧
        found.member.isOperation = true) ∧
      (∃ found, outcomeAt { source := .outside } r (findMember "A" "b" false) = .ok found ∧
        found.member.isAttribute = true ∧ found.member.isEventHandler = false) ∧
      (∃ found, outcomeAt { source := .outside } r (findConstructor "A") = .ok found) ∧
      (¬∃ i e, answerAt { source := .outside } r (findEvent "A" "end") =
        some (.error (.unknownEvent i e))) ∧
      outcomeAt { source := .outside } r (findMember "A" "f" false) =
        .error (.unknownMember "A" "f") := by
  have hread : (parse overloadedDocument.combined).toOption.any (fun fs =>
      (Fragments.mainInterface? fs).isSome && indexOf fs == {
        properties := [⟨"c", true⟩, ⟨"a", false⟩, ⟨"b", false⟩]
        hasConstructor := true
        methods := [⟨"f", true⟩, ⟨"g", false⟩]
        events := ["end"] } && (lookUp? fs "f" false).isNone) = true := by
    rw [parse_combined_of_spells rfl (by repeat' constructor)]
    decide +kernel
  obtain ⟨fs, hfs, htests⟩ := (Option.any_eq_true _ _).1 hread
  have hp := eq_ok_of_toOption hfs
  simp only [Bool.and_eq_true, beq_iff_eq, Option.isNone_iff_eq_none] at htests
  obtain ⟨⟨hm, hindexOf⟩, hhidden⟩ := htests
  have hd : Library.documentAt { source := .outside }
      { documents := [("A", overloadedDocument)] } "A" = .ok overloadedDocument := rfl
  have hf := outcomeAt_fragmentsOf hd hp hm
  obtain ⟨index, hindex, hmethods, hproperties, hconstructor, hevents, -⟩ :=
    listed_iff_found hd hp hm
  obtain rfl : indexOf fs = index := Except.ok.inj ((outcomeAt_memberIndex hf).symm.trans hindex)
  refine ⟨_, fs, _, hd, hp, hm, hindex, hindexOf, (hmethods "f" true).1 ?_,
    (hproperties "b" false).1 ?_, hconstructor.1 ?_, (hevents "end").1 ?_, ?_⟩
  · rw [hindexOf]
    decide
  · rw [hindexOf]
    decide
  · rw [hindexOf]
  · rw [hindexOf]
    decide
  · rw [outcomeAt_findMember hf, hhidden]
    rfl

end IdlDocs
