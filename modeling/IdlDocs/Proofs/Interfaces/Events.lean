import IdlDocs.Proofs.Interfaces.Overview

/-!
# Events that are looked up

An event is looked up in three steps: its handler among the members of the interface, its own
interface in the table of events, and the definitions of this interface.

* `eventInterface?`: the interface of an event, by the table.
* `answerAt_findEvent`: the steps, one after the other.
* `answerAt_withEventInterface_plain`, `answerAt_withEventInterface`: what the last of them
  gives.
* `findEvent_error_iff`: **an event with a handler fails only where the definitions of its own
  interface do**, and in the same way.
* `name_ne_empty_of_findEvent`: the properties that are found have names.
-/

namespace IdlDocs

open Idl

variable {l : Library} {r : Registry} {interface event : String} {fs : Fragments}

/-- The interface of an event at a target: that of the first entry of the table. -/
def eventInterface? (t : Tables) (event target : String) : Option String :=
  (findEvent? t.events event target).bind (·.interface)

def bareEvent (t : Tables) (interface event : String) (fs : Fragments) (handler : Member) :
    FoundEvent where
  handler
  isSecure := mainIsSecure fs || handler.isSecure
  interface := eventInterface? t event interface

def eventPropertiesOf (l : Library) (r : Registry) (fs : Fragments) :
    Option (List PropertyEntry) :=
  (foundAt l r (propertyEntries (select fs [Member.isAttribute, Test.not Member.isStatic]))).map
    (·.getD [])

/-! ## The steps -/

theorem answerAt_withEventInterface_plain {e : FoundEvent}
    (h : ∀ name, e.interface = some name → name = baseEvent) :
    answerAt l r (withEventInterface e) = some (.ok e) := by
  unfold withEventInterface
  cases hi : e.interface with
  | none => rfl
  | some name =>
    rw [h name hi]
    rfl

theorem answerAt_withEventInterface {e : FoundEvent} {name : String}
    (hi : e.interface = some name) (hname : name ≠ baseEvent) :
    answerAt l r (withEventInterface e) =
      andThen (some (outcomeAt l r (Registry.definitionsOf name))) fun found =>
        (eventPropertiesOf l r found.2).map fun properties =>
          .ok { e with
            parent := (Fragments.mainInterface? found.2).bind (·.parent)
            properties } := by
  unfold withEventInterface
  rw [hi]
  dsimp only
  rw [if_neg (by rw [beq_iff_eq]; exact hname)]
  refine ((Ends.ofAttempt (.definitionsOf name)).answerAt_bind fun found =>
    (Ends.propertyEntries _).ofSearch.inquire fun _ => .answer (.ok _)).trans ?_
  rw [answerAt_ofAttempt]
  congr 1
  funext found
  refine ((Ends.propertyEntries _).ofSearch.answerAt_bind fun _ => .answer (.ok _)).trans ?_
  rw [answerAt_ofSearch, eventPropertiesOf]
  cases foundAt l r (propertyEntries
    (select found.2 [Member.isAttribute, Test.not Member.isStatic])) <;> rfl

/-- **The three steps**: the handler, the tables and the interface of the event. -/
theorem answerAt_findEvent :
    answerAt l r (findEvent interface event) =
      andThen (some (outcomeAt l r (fragmentsOf interface))) fun fs =>
        match handler? fs event with
        | none => some (.error (.unknownEvent interface event))
        | some handler => andThen (some (outcomeAt l r Registry.tables)) fun t =>
          answerAt l r (withEventInterface (bareEvent t interface event fs handler)) := by
  refine ((Ends.ofAttempt (.fragmentsOf interface)).answerAt_bind fun fs => ?_).trans ?_
  · dsimp only
    split
    · exact .answer (.error _)
    · exact (Ends.ofAttempt .tables).inquire fun _ => .withEventInterface _
  rw [answerAt_ofAttempt]
  congr 1
  funext fs
  unfold handler?
  dsimp only
  cases firstSelected? fs [Member.isEventHandler, Member.hasName (handlerLead ++ event)] with
  | none => rfl
  | some handler => exact (Ends.ofAttempt .tables).answerAt_bind fun t => .withEventInterface _

theorem exists_of_findEvent {found : FoundEvent}
    (h : answerAt l r (findEvent interface event) = some (.ok found)) :
    ∃ fs handler t, outcomeAt l r (fragmentsOf interface) = .ok fs ∧
      handler? fs event = some handler ∧ outcomeAt l r Registry.tables = .ok t ∧
      answerAt l r (withEventInterface (bareEvent t interface event fs handler)) =
        some (.ok found) := by
  rw [answerAt_findEvent] at h
  obtain ⟨fs, hf, h⟩ := andThen_eq_ok_iff.1 h
  cases hh : handler? fs event with
  | none => rw [hh] at h; cases h
  | some handler =>
    rw [hh] at h
    obtain ⟨t, ht, h⟩ := andThen_eq_ok_iff.1 h
    exact ⟨fs, handler, t, Option.some.inj hf, hh, Option.some.inj ht, h⟩

/-! ## Events that fail -/

/-- **An event with a handler fails only where the definitions of its own interface do**, and
in the same way. -/
theorem findEvent_error_iff (hf : outcomeAt l r (fragmentsOf interface) = .ok fs)
    (hlisted : event ∈ eventNames fs) {t : Tables}
    (ht : outcomeAt l r Registry.tables = .ok t) {e : Failure} :
    answerAt l r (findEvent interface event) = some (.error e) ↔
      ∃ name, eventInterface? t event interface = some name ∧ name ≠ baseEvent ∧
        outcomeAt l r (Registry.definitionsOf name) = .error e := by
  obtain ⟨handler, hh⟩ := mem_eventNames_iff.1 hlisted
  rw [answerAt_findEvent, hf]
  dsimp only [andThen, Option.bind]
  rw [hh, ht]
  change answerAt l r (withEventInterface (bareEvent t interface event fs handler)) = _ ↔ _
  by_cases hplain : ∀ name, eventInterface? t event interface = some name → name = baseEvent
  · rw [answerAt_withEventInterface_plain hplain]
    exact ⟨nofun, fun ⟨name, hi, hname, _⟩ => absurd (hplain name hi) hname⟩
  · push Not at hplain
    obtain ⟨name, hi, hname⟩ := hplain
    rw [answerAt_withEventInterface hi hname, andThen_eq_error_iff]
    constructor
    · rintro (he | ⟨found, -, he⟩)
      · exact ⟨name, hi, hname, Option.some.inj he⟩
      · obtain ⟨properties, -, hne⟩ := Option.map_eq_some_iff.1 he
        cases hne
    · rintro ⟨other, ho, -, he⟩
      cases hi.symm.trans ho
      exact .inl (congrArg some he)

/-! ## Properties of events -/

/-- **The properties of an event** are the entries of the attributes that are not static. -/
theorem eventPropertiesOf_eq_some_iff {entry : Member → PropertyEntry}
    (hentry : ∀ m e, foundAt l r (propertyEntry m) = some e → entry m = e)
    {properties : List PropertyEntry} :
    eventPropertiesOf l r fs = some properties ↔
      properties = (selected fs [Member.isAttribute, Test.not Member.isStatic]).map entry ∧
      ∀ m ∈ selected fs [Member.isAttribute, Test.not Member.isStatic],
        foundAt l r (propertyEntry m) = some (entry m) := by
  unfold eventPropertiesOf select
  simp only [Option.map_eq_some_iff, foundAt_propertyEntries_eq_some_iff hentry]
  cases selected fs [Member.isAttribute, Test.not Member.isStatic] with
  | nil => simp [eq_comm]
  | cons m ms =>
    constructor
    · rintro ⟨_, ⟨rfl, hall⟩, rfl⟩
      exact ⟨rfl, hall⟩
    · rintro ⟨rfl, hall⟩
      exact ⟨_, ⟨rfl, hall⟩, rfl⟩

/-- **The properties that are found with an event have names.** -/
theorem name_ne_empty_of_findEvent {found : FoundEvent}
    (h : answerAt l r (findEvent interface event) = some (.ok found)) :
    ∀ e ∈ found.properties, e.name ≠ "" := by
  obtain ⟨eventFs, handler, t, -, -, -, hwith⟩ := exists_of_findEvent h
  by_cases hplain : ∀ name, eventInterface? t event interface = some name → name = baseEvent
  · rw [answerAt_withEventInterface_plain hplain] at hwith
    cases hwith
    exact fun e he => absurd he List.not_mem_nil
  · push Not at hplain
    obtain ⟨name, hi, hname⟩ := hplain
    rw [answerAt_withEventInterface hi hname] at hwith
    obtain ⟨⟨d, fs⟩, hd, hwith⟩ := andThen_eq_ok_iff.1 hwith
    obtain ⟨properties, hproperties, hfound⟩ := Option.map_eq_some_iff.1 hwith
    cases hfound
    obtain ⟨entry, hentryName, hentry⟩ := exists_entry l r
    obtain ⟨rfl, -⟩ := (eventPropertiesOf_eq_some_iff hentry).1 hproperties
    have hw := wellNamed_of_parse (exists_of_definitionsOf (Option.some.inj hd)).2
    intro e he
    obtain ⟨m, hm, rfl⟩ := List.mem_map.1 he
    obtain ⟨hfirst, htests⟩ := mem_selected.1 hm
    have hnamed := hw m (mem_of_mem_firsts hfirst)
    obtain ⟨name, hn⟩ := hnamed.exists_name (htests _ List.mem_cons_self)
    rw [hentryName]
    exact bne_iff_ne.1 (hnamed.isNamed_of_name hn)

end IdlDocs
