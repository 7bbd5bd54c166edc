import IdlDocs.Idl.Definition

/-!
# Equality of definitions

Whether two types are the same can be told by looking at both of them, from the outside to the
inside, and so it can for definitions.

* `TypeExpr.decEq`, `TypeExpr.decEqAll`: the comparison of types and of lists of types.
* The instances for types, members and definitions.
-/

namespace IdlDocs.Idl

namespace TypeExpr

mutual

def decEq : (s t : TypeExpr) → Decidable (s = t)
  | named a, named b => decidable_of_iff (a = b) ⟨congrArg named, named.inj⟩
  | union ms, union ns =>
    match decEqAll ms ns with
    | isTrue h => isTrue (congrArg union h)
    | isFalse h => isFalse fun he => h (union.inj he)
  | generic k as, generic l bs =>
    match decEqAll as bs with
    | isTrue h => decidable_of_iff (k = l)
        ⟨fun hk => by rw [hk, h], fun he => (generic.inj he).1⟩
    | isFalse h => isFalse fun he => h (generic.inj he).2
  | nullable s, nullable t =>
    match decEq s t with
    | isTrue h => isTrue (congrArg nullable h)
    | isFalse h => isFalse fun he => h (nullable.inj he)
  | named _, union _ | named _, generic _ _ | named _, nullable _ => isFalse nofun
  | union _, named _ | union _, generic _ _ | union _, nullable _ => isFalse nofun
  | generic _ _, named _ | generic _ _, union _ | generic _ _, nullable _ => isFalse nofun
  | nullable _, named _ | nullable _, union _ | nullable _, generic _ _ => isFalse nofun

def decEqAll : (ss ts : List TypeExpr) → Decidable (ss = ts)
  | [], [] => isTrue rfl
  | [], t :: ts => isFalse (List.cons_ne_nil t ts).symm
  | s :: ss, [] => isFalse (List.cons_ne_nil s ss)
  | s :: ss, t :: ts =>
    match decEq s t, decEqAll ss ts with
    | isTrue h, isTrue hs => isTrue (by rw [h, hs])
    | isFalse h, _ => isFalse fun he => h (List.cons.inj he).1
    | _, isFalse hs => isFalse fun he => hs (List.cons.inj he).2

end

instance : DecidableEq TypeExpr := decEq

end TypeExpr

deriving instance DecidableEq for Argument, Member, Interface, Field, Dictionary, Enumeration

deriving instance DecidableEq for Definition

end IdlDocs.Idl
