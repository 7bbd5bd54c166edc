import IdlDocs.Description.Basic
import IdlDocs.Registry.Library

/-!
# Describing types

The description of a type looks its names up in the registry.  Dictionaries expand
into their keys and enumerations into their values; every other name, and every name
that cannot be loaded, becomes a reference.  Within a dictionary its own name is a
reference too, so that the description of a recursive type comes to an end.

There is no end where every dictionary holds one that has not been met before.

* `expansionOf`: what a name stands for.
* `describeType`, `describeGeneric`, `describeAll`, `describeName`: the descriptions of types
  and names within dictionaries, if looking them up comes to an end.
* `describe`: **the description of a type.**
-/

namespace IdlDocs

open Idl

/-- What the description of a name shows. -/
inductive Expansion
  | fields (fields : List Field)
  | values (values : List String)
  /-- Nothing but a reference. -/
  | closed

def firstFields : List Field → List Field
  | [] => []
  | f :: fs => f :: (firstFields fs).filter (·.name != f.name)

def Document.expansion (d : Document) : Expansion :=
  match d.kind with
  | .dictionary =>
    match parse d.combined with
    | .ok fs => .fields (firstFields (Fragments.fields fs))
    | .error _ => .closed
  | .enumeration =>
    match parse d.combined with
    | .ok fs => (Fragments.enumValues? fs).elim .closed .values
    | .error _ => .closed
  | _ => .closed

/-- What a name shows.  A name that cannot be loaded is closed. -/
def expansionOf (name : String) : Lookup Expansion := do
  match ← (Registry.document name).result with
  | .ok d => return d.expansion
  | .error _ => return .closed

def Description.ofGeneric (kind : GenericKind) (d : Description) : Description :=
  if kind.isList then .arrayOf d
  else if kind = .promise then .promiseOf d
  else .genericOf kind.tag d

def Description.ofFields (fields : List Field) (types : List Description) : Description :=
  .dictionary (fields.zipWith (fun f d => (f.name, !f.required, d)) types)

namespace Library

mutual

/-- The description of a type within the dictionaries of a chain. -/
def describeType (l : Library) (chain : List String) :
    TypeExpr → Registry → Option (Description × Registry)
  | .named name, r => l |>.describeName chain name r
  | .nullable inner, r => l |>.describeType chain inner r
  | .union members, r => do
    let (ds, r) ← l |>.describeAll chain members r
    return (.oneOf ds, r)
  | .generic kind args, r => l |>.describeGeneric chain kind args r
partial_fixpoint

/-- The description of a generic type.  Only the arguments that it shows are described. -/
def describeGeneric (l : Library) (chain : List String) (kind : GenericKind) :
    List TypeExpr → Registry → Option (Description × Registry)
  | [], r => return (.text kind.tag, r)
  | [t], r => do
    let (d, r) ← l |>.describeType chain t r
    return (.ofGeneric kind d, r)
  | t :: u :: _, r => do
    let (d, r) ← l |>.describeType chain t r
    if kind = .record then
      let (e, r) ← l |>.describeType chain u r
      return (.keyValue d e, r)
    else return (.ofGeneric kind d, r)
partial_fixpoint

def describeAll (l : Library) (chain : List String) :
    List TypeExpr → Registry → Option (List Description × Registry)
  | [], r => return ([], r)
  | t :: ts, r => do
    let (d, r) ← l |>.describeType chain t r
    let (ds, r) ← l |>.describeAll chain ts r
    return (d :: ds, r)
partial_fixpoint

def describeName (l : Library) (chain : List String) (name : String) (r : Registry) :
    Option (Description × Registry) := do
  match basicLabel? name with
  | some label => return (.text label, r)
  | none =>
    if chain.contains name then return (.reference name, r)
    let (e, r) := ((expansionOf name).run l).run r
    match e with
    | .closed => return (.reference name, r)
    | .values values => return (.enumValues values, r)
    | .fields fields =>
      let (ds, r) ← l |>.describeAll (chain ++ [name]) (fields.map (·.type)) r
      return (.ofFields fields ds, r)
partial_fixpoint

end

end Library

export Library (describeType describeGeneric describeAll describeName)

/-- The description of a type.  Where looking it up does not come to an end, there is none. -/
def describe (t : TypeExpr) : Search Description := OptionT.mk fun l r =>
  match describeType l [] t r with
  | some (d, r) => (some d, r)
  | none => (none, r)

end IdlDocs
