import IdlDocs.Proofs.Description.Derivation
import IdlDocs.Proofs.Registry.Searches
import IdlDocs.Proofs.Registry.Steady

/-!
# Describing types is steady

A description is looked up name by name, with no bound on how many names there are.  Where
it comes to an end, every part of it does, and a part is looked up at a registry that is
alike to the first one.

* `describeType_settles`: **where the description of a type comes to an end, it does so at
  every registry that is alike**, with the same description.
* `Steady.describe`: describing a type is steady.
-/

namespace IdlDocs

open Idl

variable {α : Type} {l : Library} {chain : List String}

/-! ## The descriptions, case by case -/

theorem describeType_named (name : String) :
    describeType l chain (.named name) = describeName l chain name := by
  funext r; rw [describeType]

theorem describeType_nullable (t : TypeExpr) :
    describeType l chain (.nullable t) = describeType l chain t := by
  funext r; rw [describeType]

theorem describeType_union (ts : List TypeExpr) :
    describeType l chain (.union ts) = fun r =>
      describeAll l chain ts r >>= fun p => some (.oneOf p.1, p.2) := by
  funext r; rw [describeType]; rfl

theorem describeType_generic (kind : GenericKind) (ts : List TypeExpr) :
    describeType l chain (.generic kind ts) = describeGeneric l chain kind ts := by
  funext r; rw [describeType]

theorem describeGeneric_nil (kind : GenericKind) :
    describeGeneric l chain kind [] = fun r => some (.text kind.tag, r) := by
  funext r; rw [describeGeneric]; rfl

theorem describeGeneric_single (kind : GenericKind) (t : TypeExpr) :
    describeGeneric l chain kind [t] = fun r =>
      describeType l chain t r >>= fun p => some (.ofGeneric kind p.1, p.2) := by
  funext r; rw [describeGeneric]; rfl

theorem describeGeneric_record (t u : TypeExpr) (ts : List TypeExpr) :
    describeGeneric l chain .record (t :: u :: ts) = fun r =>
      describeType l chain t r >>= fun p =>
        describeType l chain u p.2 >>= fun q => some (.keyValue p.1 q.1, q.2) := by
  funext r; rw [describeGeneric]; rfl

theorem describeGeneric_more {kind : GenericKind} (hk : kind ≠ .record) (t u : TypeExpr)
    (ts : List TypeExpr) :
    describeGeneric l chain kind (t :: u :: ts) = describeGeneric l chain kind [t] := by
  funext r
  rw [describeGeneric, describeGeneric]
  simp only [if_neg hk]

theorem describeGeneric_first {kind : GenericKind} {t : TypeExpr} {ts : List TypeExpr}
    (hk : kind = .record → ts = []) :
    describeGeneric l chain kind (t :: ts) = fun r =>
      describeType l chain t r >>= fun p => some (.ofGeneric kind p.1, p.2) := by
  cases ts with
  | nil => exact describeGeneric_single kind t
  | cons u ts =>
    rw [describeGeneric_more (fun h => nomatch hk h), describeGeneric_single]

theorem describeAll_nil : describeAll l chain [] = fun r => some ([], r) := by
  funext r; rw [describeAll]; rfl

theorem describeAll_cons (t : TypeExpr) (ts : List TypeExpr) :
    describeAll l chain (t :: ts) = fun r =>
      describeType l chain t r >>= fun p =>
        describeAll l chain ts p.2 >>= fun q => some (p.1 :: q.1, q.2) := by
  funext r; rw [describeAll]; rfl

theorem describeName_basic {name label : String} (hb : basicLabel? name = some label) :
    describeName l chain name = fun r => some (.text label, r) := by
  funext r; rw [describeName, hb]; rfl

theorem describeName_within {name : String} (hb : basicLabel? name = none)
    (hc : name ∈ chain) : describeName l chain name = fun r => some (.reference name, r) := by
  funext r
  rw [describeName, hb]
  exact if_pos (List.contains_iff_mem.2 hc)

def describeExpansion (l : Library) (chain : List String) (name : String) :
    Expansion × Registry → Option (Description × Registry)
  | (.closed, r) => some (.reference name, r)
  | (.values values, r) => some (.enumValues values, r)
  | (.fields fields, r) =>
    describeAll l (chain ++ [name]) (fields.map (·.type)) r >>= fun p =>
      some (.ofFields fields p.1, p.2)

theorem describeName_expansion {name : String} (hb : basicLabel? name = none)
    (hc : name ∉ chain) :
    describeName l chain name = fun r =>
      some (((expansionOf name).run l).run r) >>= describeExpansion l chain name := by
  funext r
  rw [describeName, hb]
  refine (if_neg fun h => hc (List.contains_iff_mem.1 h)).trans ?_
  change _ = describeExpansion l chain name _
  rcases ((expansionOf name).run l).run r with ⟨_ | _ | _, r'⟩ <;> rfl

/-! ## Where a description comes to an end -/

theorem Steady.expansionOf (name : String) : Steady (expansionOf name) := by
  refine (Steady.document name).bind fun d => ?_
  cases d with
  | ok d => exact .pure _
  | error e => exact .pure _

theorem Library.Alike.expansionOf {r₀ r s : Registry} {name : String} {e : Expansion}
    (h : l.Alike r₀ r) (hx : ((expansionOf name).run l).run r = (e, s)) :
    l.Alike r₀ s ∧ valueAt l r₀ (expansionOf name) = e := by
  have hvalue : valueAt l r₀ (IdlDocs.expansionOf name) = _ := (Steady.expansionOf name).value h
  have halike := (Steady.expansionOf name).alike l r
  unfold registryAfter at halike
  unfold valueAt at hvalue
  rw [hx] at hvalue halike
  exact ⟨h.trans halike.symm, hvalue⟩

/-- A lookup that gives `out` at a registry settles there, and leaves one that is alike. -/
def Library.Reaches (l : Library) (a : Registry → Option (α × Registry)) (r : Registry)
    (out : α × Registry) : Prop :=
  l.Alike r out.2 ∧ l.Settles r a out.1

namespace Library.Reaches

variable {β : Type} {r : Registry}

theorem done (x : α) : l.Reaches (fun s => some (x, s)) r (x, r) := ⟨.refl l r, .done x⟩

theorem run {a : Lookup α} (ha : Steady a) :
    l.Reaches (fun s => some ((a.run l).run s)) r ((a.run l).run r) :=
  ⟨(ha.alike l r).symm, .run ha⟩

theorem andThen {a : Registry → Option (α × Registry)} {p : α × Registry}
    {f : α × Registry → Option (β × Registry)} {q : β × Registry} (ha : l.Reaches a r p)
    (hf : l.Reaches (fun s => f (p.1, s)) p.2 q) : l.Reaches (fun s => a s >>= f) r q :=
  ⟨ha.1.trans hf.1, ha.2.andThen (hf.2.of_alike ha.1.symm)⟩

theorem map {a : Registry → Option (α × Registry)} {p : α × Registry} (f : α → β)
    (ha : l.Reaches a r p) :
    l.Reaches (fun s => a s >>= fun p => some (f p.1, p.2)) r (f p.1, p.2) :=
  ha.andThen (.done (f p.1))

end Library.Reaches

theorem reaches_describeName {name : String} {r : Registry} {x : Expansion × Registry}
    {out : Description × Registry} (hb : basicLabel? name = none) (hc : name ∉ chain)
    (hx : ((expansionOf name).run l).run r = x)
    (h : l.Reaches (fun s => describeExpansion l chain name (x.1, s)) x.2 out) :
    l.Reaches (describeName l chain name) r out := by
  rw [describeName_expansion hb hc]
  subst hx
  exact .andThen (.run (.expansionOf name)) h

theorem reaches_describeAll_nil (r : Registry) : l.Reaches (describeAll l chain []) r ([], r) := by
  rw [describeAll_nil]
  exact .done []

theorem reaches_describeAll_cons {t : TypeExpr} {ts : List TypeExpr} {r s u : Registry}
    {d : Description} {ds : List Description}
    (ht : l.Reaches (describeType l chain t) r (d, s))
    (hts : l.Reaches (describeAll l chain ts) s (ds, u)) :
    l.Reaches (describeAll l chain (t :: ts)) r (d :: ds, u) := by
  rw [describeAll_cons]
  exact ht.andThen (hts.map (d :: ·))

/-- By induction on the rules: what follows from a rule is reached through its parts. -/
theorem Describes.reaches {t : TypeExpr} {r s : Registry} {d : Description}
    (h : Describes l chain t r d s) : l.Reaches (describeType l chain t) r (d, s) := by
  induction h using @Describes.rec l _
    (fun chain ts r ds s _ => l.Reaches (describeAll l chain ts) r (ds, s)) with
  | basic hb =>
    rw [describeType_named, describeName_basic hb]
    exact .done _
  | within hb hc =>
    rw [describeType_named, describeName_within hb hc]
    exact .done _
  | closed hb hc hx =>
    rw [describeType_named]
    exact reaches_describeName hb hc hx (.done _)
  | values hb hc hx =>
    rw [describeType_named]
    exact reaches_describeName hb hc hx (.done _)
  | @fields _ _ _ fields _ _ _ hb hc hx _ ih =>
    rw [describeType_named]
    exact reaches_describeName hb hc hx (ih.map (Description.ofFields fields))
  | nullable _ ih =>
    rw [describeType_nullable]
    exact ih
  | union _ ih =>
    rw [describeType_union]
    exact ih.map Description.oneOf
  | bare =>
    rw [describeType_generic, describeGeneric_nil]
    exact .done _
  | @generic _ kind _ _ _ _ _ hk _ ih =>
    rw [describeType_generic, describeGeneric_first hk]
    exact ih.map (Description.ofGeneric kind)
  | @keyValue _ _ _ _ _ d _ _ _ _ _ iht ihu =>
    rw [describeType_generic, describeGeneric_record]
    exact iht.andThen (ihu.map (Description.keyValue d))
  | nil => exact reaches_describeAll_nil _
  | cons _ _ ih ihs => exact reaches_describeAll_cons ih ihs

theorem DescribesAll.reaches {ts : List TypeExpr} {r s : Registry} {ds : List Description}
    (h : DescribesAll l chain ts r ds s) : l.Reaches (describeAll l chain ts) r (ds, s) := by
  induction ts generalizing r ds with
  | nil =>
    cases h with
    | nil => exact reaches_describeAll_nil _
  | cons t ts ih =>
    cases h with
    | cons ht hts => exact reaches_describeAll_cons ht.reaches (ih hts)

/-- **Where the description of a type comes to an end, it does so at every registry that is
alike**, with the same description. -/
theorem describeType_settles {t : TypeExpr} {r : Registry} {out : Description × Registry}
    (h : describeType l chain t r = some out) :
    l.Alike r out.2 ∧ l.Settles r (describeType l chain t) out.1 :=
  (describes_of_describeType h).reaches

theorem run_describe (t : TypeExpr) (r : Registry) :
    ((describe t).run.run l).run r = match describeType l [] t r with
      | some (d, r) => (some d, r)
      | none => (none, r) := rfl

theorem foundAt_describe (t : TypeExpr) (r : Registry) :
    foundAt l r (describe t) = (describeType l [] t r).map Prod.fst := by
  unfold foundAt valueAt
  rw [run_describe]
  cases describeType l [] t r <;> rfl

theorem Steady.describe (t : TypeExpr) : Steady (describe t).run where
  value {l r s} h := by
    unfold valueAt
    rw [run_describe, run_describe]
    cases hr : describeType l [] t r with
    | some x =>
      obtain ⟨s', hs, _⟩ := (describeType_settles hr).2 s h
      rw [hs]
    | none =>
      cases hs : describeType l [] t s with
      | none => rfl
      | some y =>
        obtain ⟨r', hr', _⟩ := (describeType_settles hs).2 r h.symm
        rw [hr] at hr'
        cases hr'
  alike l r := by
    unfold registryAfter
    rw [run_describe]
    cases hr : describeType l [] t r with
    | some x => exact (describeType_settles hr).1.symm
    | none => exact .refl l r

end IdlDocs
