import IdlDocs.Description.Expand

/-!
# How descriptions come about

The four functions that describe types call each other, and they need not come to an end.
Where they do, the calls that were made are a tree: one call for each part of the type and
for each field of a dictionary on the way, from the registry that the call before it has left.

* `Describes`, `DescribesAll`: **the rules of these trees**, for a type and for types in a row.
* `describes_of_describeType`: **a description that comes to an end follows from the rules.**

What holds of every description is shown by induction on the rules.
-/

namespace IdlDocs

open Idl

mutual

/-- The description of a type within the dictionaries of a chain, from one registry to
another. -/
inductive Describes (l : Library) :
    List String → TypeExpr → Registry → Description → Registry → Prop
  | basic {chain name label r} (hb : basicLabel? name = some label) :
    Describes l chain (.named name) r (.text label) r
  | within {chain name r} (hb : basicLabel? name = none) (hc : name ∈ chain) :
    Describes l chain (.named name) r (.reference name) r
  /-- A name that shows nothing. -/
  | closed {chain name r s} (hb : basicLabel? name = none) (hc : name ∉ chain)
    (hx : ((expansionOf name).run l).run r = (.closed, s)) :
    Describes l chain (.named name) r (.reference name) s
  | values {chain name r vs s} (hb : basicLabel? name = none) (hc : name ∉ chain)
    (hx : ((expansionOf name).run l).run r = (.values vs, s)) :
    Describes l chain (.named name) r (.enumValues vs) s
  | fields {chain name r fields s ds u} (hb : basicLabel? name = none) (hc : name ∉ chain)
    (hx : ((expansionOf name).run l).run r = (.fields fields, s))
    (h : DescribesAll l (chain ++ [name]) (fields.map (·.type)) s ds u) :
    Describes l chain (.named name) r (.ofFields fields ds) u
  | nullable {chain t r d s} (h : Describes l chain t r d s) :
    Describes l chain (.nullable t) r d s
  | union {chain ts r ds s} (h : DescribesAll l chain ts r ds s) :
    Describes l chain (.union ts) r (.oneOf ds) s
  | bare {chain kind r} : Describes l chain (.generic kind []) r (.text kind.tag) r
  /-- A generic type shows its first argument. -/
  | generic {chain kind t ts r d s} (hk : kind = .record → ts = [])
    (h : Describes l chain t r d s) :
    Describes l chain (.generic kind (t :: ts)) r (.ofGeneric kind d) s
  /-- A map with two arguments shows both. -/
  | keyValue {chain t u ts r d s e v} (ht : Describes l chain t r d s)
    (hu : Describes l chain u s e v) :
    Describes l chain (.generic .record (t :: u :: ts)) r (.keyValue d e) v

/-- The descriptions of types in a row. -/
inductive DescribesAll (l : Library) :
    List String → List TypeExpr → Registry → List Description → Registry → Prop
  | nil {chain r} : DescribesAll l chain [] r [] r
  | cons {chain t ts r d s ds u} (ht : Describes l chain t r d s)
    (hts : DescribesAll l chain ts s ds u) : DescribesAll l chain (t :: ts) r (d :: ds) u

end

/-- By induction on the approximations of the four descriptions: what an approximation gives
follows from a rule and from what the approximations that it calls give. -/
theorem describes_of_describe (l : Library) :
    (∀ chain t r out, describeType l chain t r = some out →
      Describes l chain t r out.1 out.2) ∧
    (∀ chain kind ts r out, describeGeneric l chain kind ts r = some out →
      Describes l chain (.generic kind ts) r out.1 out.2) ∧
    (∀ chain ts r out, describeAll l chain ts r = some out →
      DescribesAll l chain ts r out.1 out.2) ∧
    ∀ chain name r out, describeName l chain name r = some out →
      Describes l chain (.named name) r out.1 out.2 := by
  refine Library.describeType.mutual_partial_correctness l
    (fun chain t r out => Describes l chain t r out.1 out.2)
    (fun chain kind ts r out => Describes l chain (.generic kind ts) r out.1 out.2)
    (fun chain ts r out => DescribesAll l chain ts r out.1 out.2)
    (fun chain name r out => Describes l chain (.named name) r out.1 out.2) ?_ ?_ ?_ ?_
  · intro type generic all name htype hgeneric hall hname chain t r out h
    cases t with
    | named n => exact hname chain n r out h
    | nullable t => exact .nullable (htype chain t r out h)
    | union ts =>
      obtain ⟨p, hp, hout⟩ := Option.bind_eq_some_iff.1 h
      cases hout
      exact .union (hall chain ts r p hp)
    | generic kind ts => exact hgeneric chain kind ts r out h
  · intro type htype chain kind ts r out h
    rcases ts with _ | ⟨t, _ | ⟨u, ts⟩⟩
    · cases h
      exact .bare
    · obtain ⟨p, hp, hout⟩ := Option.bind_eq_some_iff.1 h
      cases hout
      exact .generic (fun _ => rfl) (htype chain t r p hp)
    · obtain ⟨p, hp, hout⟩ := Option.bind_eq_some_iff.1 h
      dsimp only at hout
      by_cases hk : kind = .record
      · rw [if_pos hk] at hout
        subst hk
        obtain ⟨q, hq, hout⟩ := Option.bind_eq_some_iff.1 hout
        cases hout
        exact .keyValue (htype chain t r p hp) (htype chain u p.2 q hq)
      · rw [if_neg hk] at hout
        cases hout
        exact .generic (fun h => absurd h hk) (htype chain t r p hp)
  · intro type all htype hall chain ts r out h
    cases ts with
    | nil =>
      cases h
      exact .nil
    | cons t ts =>
      obtain ⟨p, hp, hrest⟩ := Option.bind_eq_some_iff.1 h
      obtain ⟨q, hq, hout⟩ := Option.bind_eq_some_iff.1 hrest
      cases hout
      exact .cons (htype chain t r p hp) (hall chain ts p.2 q hq)
  · intro all hall chain name r out h
    cases hb : basicLabel? name with
    | some label =>
      rw [hb] at h
      cases h
      exact .basic hb
    | none =>
      rw [hb] at h
      by_cases hc : name ∈ chain
      · cases (if_pos (List.contains_iff_mem.2 hc)).symm.trans h
        exact .within hb hc
      · replace h := (if_neg fun h => hc (List.contains_iff_mem.1 h)).symm.trans h
        -- What the name shows decides which rule it is.
        cases hx : ((expansionOf name).run l).run r with
        | mk e s =>
          rw [hx] at h
          cases e with
          | closed =>
            cases h
            exact .closed hb hc hx
          | values vs =>
            cases h
            exact .values hb hc hx
          | fields fields =>
            obtain ⟨p, hp, hout⟩ := Option.bind_eq_some_iff.1 h
            cases hout
            exact .fields hb hc hx (hall _ _ s p hp)

section

variable {l : Library} {chain : List String} {r : Registry}

/-- **A description that comes to an end follows from the rules.** -/
theorem describes_of_describeType {t : TypeExpr} {out : Description × Registry}
    (h : describeType l chain t r = some out) : Describes l chain t r out.1 out.2 :=
  (describes_of_describe l).1 chain t r out h

theorem describesAll_of_describeAll {ts : List TypeExpr} {out : List Description × Registry}
    (h : describeAll l chain ts r = some out) : DescribesAll l chain ts r out.1 out.2 :=
  (describes_of_describe l).2.2.1 chain ts r out h

end

end IdlDocs
