import IdlDocs.Pages.Generation
import IdlDocs.Proofs.Interfaces.Composed

/-!
# Generating pages is composed

* `Ends.assemble`, `Ends.generate`: the record of a request, and its page.
* `Ends.generateAll`: **all pages of an interface.**
-/

namespace IdlDocs

open Idl Templates

theorem Composed.groupName (r : Request) : Composed (groupName r).result := by
  unfold IdlDocs.groupName
  cases r.group with
  | some group => exact .ok _
  | none => exact groupFor r.interface

namespace Ends

/-! ## Records -/

theorem parameterEntry (a : Argument) : Ends (parameterEntry a) :=
  (formatType listItemDepth a.type).search fun _ => .found _

theorem parameterEntries (m : Member) : Ends (parameterEntries m) := by
  unfold IdlDocs.parameterEntries
  by_cases h : (m.isOperation || m.isConstructor) && !m.arguments.isEmpty
  · rw [if_pos h]
    exact (searchAll parameterEntry m.arguments).search fun _ => .found _
  · rw [if_neg h]
    exact .found none

theorem returnText (m : Member) : Ends (returnText m) := by
  unfold IdlDocs.returnText
  split
  · next t _ _ =>
    by_cases h : t.isUndefined
    · rw [if_pos h]
      exact .found none
    · rw [if_neg h]
      exact (formatType 0 t).search fun _ => .found _
  · exact .found none

theorem propertyText (m : Member) : Ends (propertyText m) := by
  unfold IdlDocs.propertyText
  split
  · next t _ _ => exact (formatType 0 t).search fun _ => .found _
  · exact .found none

theorem memberPage (r : Request) (found : FoundMember) (group : Option String) :
    Ends (memberPage r found group) :=
  (parameterEntries found.member).search fun _ =>
    (returnText found.member).search fun _ =>
      (propertyText found.member).search fun _ => .found _

theorem assembleIn (r : Request) (group : Option String) : Ends (assembleIn r group).result := by
  unfold IdlDocs.assembleIn
  cases r.selector with
  | overview => exact (overview r.interface).inquire fun o => .answer (.ok _)
  | constructor =>
    refine (ofAttempt (.findConstructor r.interface)).inquire fun found => ?_
    exact (memberPage r found group).ofSearch.inquire fun page => .answer (.ok _)
  | member name isStatic =>
    refine (ofAttempt (.findMember r.interface name isStatic)).inquire fun found => ?_
    exact (memberPage r found group).ofSearch.inquire fun page => .answer (.ok _)
  | event name => exact (findEvent r.interface name).inquire fun found => .answer (.ok _)

theorem assemble (r : Request) : Ends (assemble r).result :=
  (ofAttempt (.groupName r)).inquire (assembleIn r)

/-! ## Pages -/

variable {e : Engine} (renderer : Renderer e) (extension : String)

theorem generate (r : Request) : Ends (generate renderer r).result :=
  (assemble r).inquire fun page => .answer (renderPage renderer page)

theorem generateSubPage (r : Request) : Ends (generateSubPage renderer extension r) :=
  (generate renderer r).search fun _ => .found _

theorem generateSubPages (rs : List Request) : Ends (generateSubPages renderer extension rs) :=
  searchAll (generateSubPage renderer extension) rs

theorem generatePages (root : Request) (o : Overview) :
    Ends (generatePages renderer extension root o).result := by
  refine (answer (renderPage renderer _)).inquire fun content => ?_
  exact (generateSubPages renderer extension _).ofSearch.inquire fun pages => .answer (.ok _)

theorem generateAll (r : Request) : Ends (generateAll renderer extension r).result := by
  refine (ofAttempt (.groupName r)).inquire fun group => ?_
  exact (overview r.interface).inquire (generatePages renderer extension _)

end Ends

end IdlDocs
