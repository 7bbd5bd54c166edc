import IdlDocs.Proofs.Registry.Loading

/-!
# Searches and inquiries

A search gives nothing where it does not come to an end, and an inquiry may fail besides.  Where a
part of one does not come to an end, nothing comes after it; and where a part of an inquiry fails,
its failure is the answer.

* `foundAt`, `answerAt`: what a search and an inquiry give.
* `andThen`: **an answer that goes on from another one**, and when it comes to an end, fails or does
  not.
* `answerAt_ofAttempt`, `answerAt_ofSearch`: attempts and searches as inquiries.
-/

namespace IdlDocs

variable {α β : Type} {l : Library} {r : Registry}

/-- What a search gives, if it comes to an end. -/
def foundAt (l : Library) (r : Registry) (a : Search α) : Option α := valueAt l r a.run

/-- What an inquiry gives, if it comes to an end. -/
def answerAt (l : Library) (r : Registry) (a : Inquiry α) : Option (Except Failure α) :=
  foundAt l r a.result

/-! ## Answers -/

/-- The answer that goes on from another one.  A failure, and what does not come to an end, stay as
they are. -/
def andThen (x : Option (Except Failure α)) (f : α → Option (Except Failure β)) :
    Option (Except Failure β) :=
  x.bind fun
    | .ok a => f a
    | .error e => some (.error e)

section Answers

variable {x : Option (Except Failure α)} {f : α → Option (Except Failure β)}

theorem andThen_eq_ok_iff {b : β} :
    andThen x f = some (.ok b) ↔ ∃ a, x = some (.ok a) ∧ f a = some (.ok b) := by
  rcases x with _ | (e | a) <;> simp [andThen]

theorem andThen_eq_error_iff {e : Failure} :
    andThen x f = some (.error e) ↔
      x = some (.error e) ∨ ∃ a, x = some (.ok a) ∧ f a = some (.error e) := by
  rcases x with _ | (e | a) <;> simp [andThen]

/-- After what cannot fail nothing is left of its not failing. -/
theorem andThen_map_ok (x : Option α) (f : α → Option (Except Failure β)) :
    andThen (x.map .ok) f = x.bind f := by
  cases x <;> rfl

theorem andThen_ok (x : Option (Except Failure α)) (f : α → β) :
    andThen x (fun a => some (.ok (f a))) = x.map (·.map f) := by
  rcases x with _ | (e | a) <;> rfl

/-- What comes last, and cannot fail, leaves an answer as it is. -/
theorem map_map_eq_ok_iff {g : α → β} {b : β} :
    x.map (·.map g) = some (.ok b) ↔ ∃ a, x = some (.ok a) ∧ g a = b := by
  rcases x with _ | (e | a) <;> simp [Except.map]

theorem map_map_eq_error_iff {g : α → β} {e : Failure} :
    x.map (·.map g) = some (.error e) ↔ x = some (.error e) := by
  rcases x with _ | (e | a) <;> simp [Except.map]

end Answers

/-! ## One step after another -/

theorem foundAt_then (l : Library) (r : Registry) (a : Search α) (f : α → Search β) :
    foundAt l r (a >>= f) =
      (foundAt l r a).bind fun x => foundAt l (registryAfter l r a.run) (f x) := by
  unfold foundAt
  rw [OptionT.run_bind, Option.elimM, valueAt_then]
  cases valueAt l r a.run <;> rfl

theorem answerAt_then (l : Library) (r : Registry) (a : Inquiry α) (f : α → Inquiry β) :
    answerAt l r (a >>= f) =
      andThen (answerAt l r a) fun x => answerAt l (registryAfter l r a.result.run) (f x) := by
  unfold answerAt Inquiry.result
  rw [ExceptT.run_bind, foundAt_then]
  refine Option.bind_congr fun x _ => ?_
  cases x <;> rfl

/-! ## What is lifted -/

theorem answerAt_ofAttempt (a : Attempt α) :
    answerAt l r (liftM a) = some (outcomeAt l r a) := rfl

theorem answerAt_ofExcept (x : Except Failure α) : answerAt l r (liftM x) = some x := rfl

theorem answerAt_ofSearch (a : Search α) :
    answerAt l r (liftM a) = (foundAt l r a).map .ok := by
  unfold answerAt foundAt Inquiry.result
  change valueAt l r (OptionT.run ((Except.ok : α → Except Failure α) <$> a)) = _
  rw [OptionT.run_map]
  rfl

end IdlDocs
