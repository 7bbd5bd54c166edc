import IdlDocs.Proofs.Description.Steady
import IdlDocs.Proofs.Registry.History

/-!
# What describing a type asks for

Where the description of a type comes to an end, all that it has done to the registry is to
look up the documents of names, one after the other.

* `Connected.describe`: **describing a type is a row of queries.**
-/

namespace IdlDocs

open Idl

variable {c : Config}

/-- What a name shows is looked up in its document, and nowhere else. -/
theorem Connected.expansionOf (source : Source) (r : Registry) (name : String) :
    Connected c r (((expansionOf name).run ⟨source, c⟩).run r).2 := by
  change Connected c r (registryAfter ⟨source, c⟩ r (IdlDocs.expansionOf name))
  unfold IdlDocs.expansionOf
  rw [registryAfter_then]
  cases valueAt ⟨source, c⟩ r (Registry.document name).result <;>
    exact .document source r name

/-- By induction on the rules: each part goes on where the one before it has ended. -/
theorem Describes.connected {source : Source} {chain : List String} {t : TypeExpr}
    {r s : Registry} {d : Description} (h : Describes ⟨source, c⟩ chain t r d s) :
    Connected c r s := by
  have hshown {name : String} {r : Registry} {x : Expansion × Registry}
      (hx : ((expansionOf name).run ⟨source, c⟩).run r = x) : Connected c r x.2 :=
    hx ▸ Connected.expansionOf source r name
  induction h using @Describes.rec ⟨source, c⟩ _ (fun _ _ r _ s _ => Connected c r s) with
  | basic | within | bare | nil => exact .refl _
  | closed _ _ hx | values _ _ hx => exact hshown hx
  | fields _ _ hx _ ih => exact (hshown hx).trans ih
  | nullable _ ih | union _ ih | generic _ _ ih => exact ih
  | keyValue _ _ iht ihu | cons _ _ iht ihu => exact iht.trans ihu

/-- **Describing a type is a row of queries.** -/
theorem Connected.describe (source : Source) (r : Registry) (t : TypeExpr) :
    Connected c r (registryAfter ⟨source, c⟩ r (IdlDocs.describe t).run) := by
  unfold registryAfter
  rw [run_describe]
  cases h : describeType ⟨source, c⟩ [] t r with
  | some out => exact (describes_of_describeType h).connected
  | none => exact .refl r

end IdlDocs
