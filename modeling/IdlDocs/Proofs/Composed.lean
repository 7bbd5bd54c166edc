import IdlDocs.Proofs.Description.Steady
import IdlDocs.Proofs.Registry.Searches

/-!
# Composed lookups

Every lookup of this library is put together from a few: of the tables, of a document, of the
description of a type.  What these three do to a registry and what is kept when one lookup
follows another holds of all of them.

* `Composed`: **the lookups that are put together from these.**
* `Composed.steady`: **they are steady.**
* `Composed.valueAt_bind`, `Composed.outcomeAt_andThen`: two of them in a row both look at the
  registry before them.
* `Ends`: **searches that are put together so**, and come to an end where descriptions do.
* `Ends.foundAt_bind`, `Ends.answerAt_bind`, `Ends.foundAt_mapM`: what searches and inquiries in a
  row give.
-/

namespace IdlDocs

/-- A lookup that is put together from lookups of the tables, of documents and of
descriptions of types. -/
inductive Composed : {α : Type} → Lookup α → Prop
  | pure {α : Type} (x : α) : Composed (Pure.pure x : Lookup α)
  | library : Composed (read : Lookup Library)
  | tables : Composed Registry.tables.result
  | document (name : String) : Composed (Registry.document name).result
  | describe (t : Idl.TypeExpr) : Composed (describe t).run
  | bind {α β : Type} {a : Lookup α} {f : α → Lookup β} (ha : Composed a)
    (hf : ∀ x, Composed (f x)) : Composed (a >>= f)

namespace Composed

variable {α β : Type} {l : Library} {r : Registry}

theorem steady {a : Lookup α} (h : Composed a) : Steady a := by
  induction h with
  | pure x => exact .pure x
  | library => exact .library
  | tables => exact .tables
  | document name => exact .document name
  | describe t => exact .describe t
  | bind _ _ iha ihf => exact iha.bind ihf

theorem valueAt_bind {a : Lookup α} {f : α → Lookup β} (ha : Composed a)
    (hf : ∀ x, Composed (f x)) : valueAt l r (a >>= f) = valueAt l r (f (valueAt l r a)) :=
  ha.steady.valueAt_bind (fun x => (hf x).steady) r

/-! ## Attempts -/

theorem ok (x : α) : Composed (Attempt.result (Pure.pure x)) := .pure _

theorem fail (e : Failure) : Composed (Attempt.result (throw e : Attempt α)) := .pure _

theorem ofExcept (x : Except Failure α) : Composed (Attempt.result (liftM x)) := .pure x

theorem lift {a : Lookup α} (ha : Composed a) : Composed (Attempt.result (liftM a)) :=
  ha.bind fun x => .pure (Except.ok x)

theorem andThen {a : Attempt α} {f : α → Attempt β} (ha : Composed a.result)
    (hf : ∀ x, Composed (f x).result) : Composed (Attempt.result (a >>= f)) := by
  unfold Attempt.result at *
  rw [ExceptT.run_bind]
  refine ha.bind fun x => ?_
  cases x with
  | error e => exact .pure _
  | ok x => exact hf x

theorem outcomeAt_andThen {a : Attempt α} {f : α → Attempt β} (ha : Composed a.result)
    (hf : ∀ x, Composed (f x).result) :
    outcomeAt l r (a >>= f) = (outcomeAt l r a).bind fun x => outcomeAt l r (f x) :=
  ha.steady.outcomeAt_andThen (fun x => (hf x).steady) r

theorem location (name : String) : Composed (Registry.location name).result :=
  tables.andThen fun _ => (lift library).andThen fun _ => .ok _

theorem definitionsOf (name : String) : Composed (Registry.definitionsOf name).result :=
  (document name).andThen fun _ => (ofExcept _).andThen fun _ => .ok _

theorem groupFor (interface : String) : Composed (Registry.groupFor interface).result :=
  tables.andThen fun _ => .ok _

end Composed

/-! ## Searches and inquiries -/

/-- A search that is put together from these, and comes to an end where all descriptions of types
do. -/
structure Ends {α : Type} (a : Search α) : Prop where
  composed : Composed a.run
  ends : ∀ l r, (∀ t, (foundAt l r (describe t)).isSome) → (foundAt l r a).isSome

namespace Ends

variable {α β : Type} {l : Library} {r : Registry}

section Searches

variable {a : Search α} {f : α → Search β}

theorem found (x : α) : Ends (Pure.pure x : Search α) := ⟨.pure (some x), fun _ _ _ => rfl⟩

theorem describe (t : Idl.TypeExpr) : Ends (describe t) := ⟨.describe t, fun _ _ h => h t⟩

/-- **Two searches in a row both look at the registry before them.** -/
theorem foundAt_bind (ha : Ends a) (hf : ∀ x, Ends (f x)) :
    foundAt l r (a >>= f) = (foundAt l r a).bind fun x => foundAt l r (f x) := by
  rw [foundAt_then]
  refine Option.bind_congr fun x _ => ?_
  exact (hf x).composed.steady.value (ha.composed.steady.alike l r)

theorem search (ha : Ends a) (hf : ∀ x, Ends (f x)) : Ends (a >>= f) where
  composed := by
    rw [OptionT.run_bind]
    refine ha.composed.bind fun x => ?_
    cases x with
    | none => exact .pure none
    | some x => exact (hf x).composed
  ends l r h := by
    obtain ⟨x, hx⟩ := Option.isSome_iff_exists.1 (ha.ends l r h)
    rw [ha.foundAt_bind hf, hx]
    exact (hf x).ends l r h

theorem searchAll (hf : ∀ x, Ends (f x)) (xs : List α) : Ends (xs.mapM f) := by
  induction xs with
  | nil => exact .found []
  | cons x xs ih =>
    rw [List.mapM_cons]
    exact (hf x).search fun y => ih.search fun ys => .found (y :: ys)

theorem foundAt_mapM (hf : ∀ x, Ends (f x)) (xs : List α) :
    foundAt l r (xs.mapM f) = xs.mapM fun x => foundAt l r (f x) := by
  induction xs with
  | nil => rfl
  | cons x xs ih =>
    rw [List.mapM_cons, (hf x).foundAt_bind fun y =>
      (searchAll hf xs).search fun ys => .found (y :: ys), List.mapM_cons]
    congr 1
    funext y
    rw [(searchAll hf xs).foundAt_bind fun ys => .found (y :: ys), ih]
    rfl

end Searches

section Inquiries

variable {a : Inquiry α} {f : α → Inquiry β}

theorem answer (x : Except Failure α) : Ends (Inquiry.result (liftM x)) :=
  ⟨.pure (some x), fun _ _ _ => rfl⟩

theorem ofAttempt {a : Attempt α} (ha : Composed a.result) : Ends (Inquiry.result (liftM a)) :=
  ⟨ha.bind fun x => .pure (some x), fun _ _ _ => rfl⟩

theorem ofSearch {a : Search α} (ha : Ends a) : Ends (Inquiry.result (liftM a)) :=
  ha.search fun x => .found (Except.ok x)

/-- **Two inquiries in a row both look at the registry before them.** -/
theorem answerAt_bind (ha : Ends a.result) (hf : ∀ x, Ends (f x).result) :
    answerAt l r (a >>= f) = andThen (answerAt l r a) fun x => answerAt l r (f x) := by
  rw [answerAt_then]
  congr 1
  funext x
  exact (hf x).composed.steady.value (ha.composed.steady.alike l r)

theorem inquire (ha : Ends a.result) (hf : ∀ x, Ends (f x).result) :
    Ends (Inquiry.result (a >>= f)) := by
  unfold Inquiry.result at *
  rw [ExceptT.run_bind]
  refine ha.search fun x => ?_
  cases x with
  | error e => exact .found _
  | ok x => exact hf x

end Inquiries

end Ends

end IdlDocs
