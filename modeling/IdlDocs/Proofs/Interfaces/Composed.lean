import IdlDocs.Interfaces.Lookup
import IdlDocs.Proofs.Composed

/-!
# Resolving interfaces is composed

What is looked up on an interface is put together from documents, tables and descriptions
of types.

* `Ends.overview`: what the page of an interface lists.
* `Composed.findMember`, `Composed.findConstructor`, `Ends.findEvent`: single members and
  events.
* `Composed.memberIndex`: what can be looked up.
-/

namespace IdlDocs

open Idl

/-! ## Entries -/

namespace Ends

theorem formatType (depth : Nat) (t : TypeExpr) : Ends (formatType depth t) :=
  (describe t).search fun _ => .found _

theorem typeText (m : Member) : Ends (typeText m) := by
  unfold IdlDocs.typeText
  cases m.type with
  | none => exact .found _
  | some t => exact formatType listItemDepth t

theorem propertyEntry (m : Member) : Ends (propertyEntry m) :=
  (typeText m).search fun _ => .found _

theorem propertyEntries (found : Option (List Member)) : Ends (propertyEntries found) := by
  cases found with
  | none => exact .found none
  | some ms => exact (searchAll propertyEntry ms).search fun _ => .found _

theorem memberGroups (fs : Fragments) : Ends (memberGroups fs) :=
  (propertyEntries _).search fun _ => (propertyEntries _).search fun _ => .found _

end Ends

/-! ## Members -/

namespace Composed

theorem parentFragments (d : Document) (parent : String) :
    Composed (parentFragments d parent).result := by
  unfold IdlDocs.parentFragments
  cases d.parentText? with
  | some p => exact .ofExcept _
  | none => exact (document parent).andThen fun p => .ofExcept _

theorem fragmentsOf (interface : String) : Composed (fragmentsOf interface).result := by
  refine (definitionsOf interface).andThen fun found => ?_
  exact (ofExcept (interfaceOf interface found.2)).andThen fun _ => .ok _

theorem findMember (interface name : String) (isStatic : Bool) :
    Composed (findMember interface name isStatic).result :=
  (fragmentsOf interface).andThen fun _ => .ofExcept _

theorem findConstructor (interface : String) : Composed (findConstructor interface).result :=
  (fragmentsOf interface).andThen fun _ => .ofExcept _

theorem memberIndex (interface : String) : Composed (memberIndex interface).result :=
  (fragmentsOf interface).andThen fun _ => .ok _

end Composed

/-! ## Overviews and events -/

namespace Ends

theorem parentGroups (d : Document) (main : Interface) : Ends (parentGroups d main).result := by
  unfold IdlDocs.parentGroups
  cases main.parent with
  | none => exact .answer (.ok none)
  | some parent =>
    refine (ofAttempt (.parentFragments d parent)).inquire fun fs => ?_
    exact (memberGroups fs).ofSearch.inquire fun _ => .answer (.ok _)

theorem overview (name : String) : Ends (overview name).result := by
  refine (ofAttempt (.definitionsOf name)).inquire fun found => ?_
  refine (answer (interfaceOf name found.2)).inquire fun main => ?_
  refine (memberGroups found.2).ofSearch.inquire fun _ => ?_
  exact (parentGroups found.1 main).inquire fun _ => .answer (.ok _)

theorem withEventInterface (e : FoundEvent) : Ends (withEventInterface e).result := by
  unfold IdlDocs.withEventInterface
  cases e.interface with
  | none => exact .answer (.ok _)
  | some name =>
    by_cases hb : name == baseEvent
    · simp only [hb, if_true]
      exact .answer (.ok _)
    · simp only [hb]
      refine (ofAttempt (.definitionsOf name)).inquire fun found => ?_
      exact (propertyEntries _).ofSearch.inquire fun _ => .answer (.ok _)

theorem findEvent (interface event : String) : Ends (findEvent interface event).result := by
  unfold IdlDocs.findEvent
  refine (ofAttempt (.fragmentsOf interface)).inquire fun fs => ?_
  dsimp only
  cases firstSelected? fs [Member.isEventHandler, Member.hasName (handlerLead ++ event)] with
  | none => exact .answer (.error _)
  | some handler => exact (ofAttempt .tables).inquire fun t => withEventInterface _

end Ends

end IdlDocs
