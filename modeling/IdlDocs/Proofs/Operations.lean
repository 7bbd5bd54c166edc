import IdlDocs.Proofs.Pages.Composed

/-!
# Operations in a row

All that is done with a registry is one of a few operations, each of which looks up what it
needs and leaves what it has loaded to the next one.

* `Operation`: the operations, with their answers.
* `answers`: **the answers of operations that are performed one after the other**, on one
  registry.
* `answers_of_fresh`: each of them is what the operation answers when it is performed alone,
  on a registry that has loaded nothing.
-/

namespace IdlDocs

open Idl Templates

/-- An operation on a registry, with renderers of one engine. -/
inductive Operation (e : Engine)
  | tables
  | location (name : String)
  | document (name : String)
  | definitionsOf (name : String)
  | groupFor (interface : String)
  | fragmentsOf (interface : String)
  | overview (interface : String)
  | findMember (interface name : String) (isStatic : Bool)
  | findConstructor (interface : String)
  | findEvent (interface event : String)
  | memberIndex (interface : String)
  | describe (type : TypeExpr)
  | formatType (depth : Nat) (type : TypeExpr)
  | assemble (request : Request)
  | generate (renderer : Renderer e) (request : Request)
  | generateAll (renderer : Renderer e) (extension : String) (request : Request)

variable {e : Engine}

namespace Operation

/-- What an operation answers.  Failures are answers too.  Where types are described there may be
no end, and then there is no answer. -/
def Answer : Operation e → Type
  | tables => Except Failure Tables
  | location _ => Except Failure String
  | document _ => Except Failure Document
  | definitionsOf _ => Except Failure (Document × Fragments)
  | groupFor _ => Except Failure (Option String)
  | fragmentsOf _ => Except Failure Fragments
  | overview _ => Option (Except Failure Overview)
  | findMember .. => Except Failure FoundMember
  | findConstructor _ => Except Failure FoundMember
  | findEvent .. => Option (Except Failure FoundEvent)
  | memberIndex _ => Except Failure MemberIndex
  | describe _ => Option Description
  | formatType .. => Option String
  | assemble _ => Option (Except Failure Page)
  | generate .. => Option (Except Failure String)
  | generateAll .. => Option (Except Failure (List GeneratedPage))

def perform : (o : Operation e) → Lookup o.Answer
  | tables => Registry.tables.result
  | location name => (Registry.location name).result
  | document name => (Registry.document name).result
  | definitionsOf name => (Registry.definitionsOf name).result
  | groupFor interface => (Registry.groupFor interface).result
  | fragmentsOf interface => (IdlDocs.fragmentsOf interface).result
  | overview interface => (IdlDocs.overview interface).result.run
  | findMember interface name isStatic => (IdlDocs.findMember interface name isStatic).result
  | findConstructor interface => (IdlDocs.findConstructor interface).result
  | findEvent interface event => (IdlDocs.findEvent interface event).result.run
  | memberIndex interface => (IdlDocs.memberIndex interface).result
  | describe type => (IdlDocs.describe type).run
  | formatType depth type => (IdlDocs.formatType depth type).run
  | assemble request => (IdlDocs.assemble request).result.run
  | generate renderer request => (IdlDocs.generate renderer request).result.run
  | generateAll renderer extension request =>
    (IdlDocs.generateAll renderer extension request).result.run

theorem composed_perform (o : Operation e) : Composed o.perform := by
  cases o with
  | tables => exact .tables
  | location name => exact .location name
  | document name => exact .document name
  | definitionsOf name => exact .definitionsOf name
  | groupFor interface => exact .groupFor interface
  | fragmentsOf interface => exact .fragmentsOf interface
  | overview interface => exact (Ends.overview interface).composed
  | findMember interface name isStatic => exact .findMember interface name isStatic
  | findConstructor interface => exact .findConstructor interface
  | findEvent interface event => exact (Ends.findEvent interface event).composed
  | memberIndex interface => exact .memberIndex interface
  | describe type => exact .describe type
  | formatType depth type => exact (Ends.formatType depth type).composed
  | assemble request => exact (Ends.assemble request).composed
  | generate renderer request => exact (Ends.generate renderer request).composed
  | generateAll renderer extension request =>
    exact (Ends.generateAll renderer extension request).composed

end Operation

/-- The answers of operations that are performed one after the other, the first of them at
the registry `r`. -/
def answers (l : Library) : Registry → List (Operation e) → List (Σ o : Operation e, o.Answer)
  | _, [] => []
  | r, o :: os => ⟨o, valueAt l r o.perform⟩ :: answers l (registryAfter l r o.perform) os

theorem answers_of_alike {l : Library} {r s : Registry} (h : l.Alike r s)
    (os : List (Operation e)) : answers l r os = os.map fun o => ⟨o, valueAt l s o.perform⟩ := by
  induction os generalizing r with
  | nil => rfl
  | cons o os ih =>
    rw [answers, List.map_cons, o.composed_perform.steady.value h,
      ih ((o.composed_perform.steady.alike l r).trans h)]

/-- **What has been loaded does not show**: of operations performed one after the other each
one answers what it answers on a registry that has loaded nothing. -/
theorem answers_of_fresh (l : Library) (os : List (Operation e)) :
    answers l {} os = os.map fun o => ⟨o, valueAt l {} o.perform⟩ :=
  answers_of_alike (.refl l {}) os

end IdlDocs
