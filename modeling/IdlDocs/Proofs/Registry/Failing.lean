import IdlDocs.Proofs.Registry.Searches

/-!
# How attempts fail

Which failures an attempt or an inquiry may have follows from those of its parts.

* `Fails`, `InquiryFails`: an attempt, or an inquiry, fails in no other ways, whatever the library
  and the registry.
* `Fails.andThen`: one attempt after another.
* `Failure.IsLoading`: **the failures to load a document and to read its definitions**, the
  only ones of `tables`, `document` and `definitionsOf`.
-/

namespace IdlDocs

variable {α β : Type} {P : Failure → Prop}

def Fails (P : Failure → Prop) (a : Attempt α) : Prop :=
  ∀ l r e, outcomeAt l r a = .error e → P e

namespace Fails

theorem ok (x : α) : Fails P (pure x : Attempt α) := by
  intro l r e h
  cases h

theorem library : Fails P (read : Attempt Library) := by
  intro l r e h
  cases h

theorem ofExcept {x : Except Failure α} (h : ∀ e, x = .error e → P e) :
    Fails P (liftM x : Attempt α) := fun _ _ => h

theorem andThen {a : Attempt α} {f : α → Attempt β} (ha : Fails P a)
    (hf : ∀ x, Fails P (f x)) : Fails P (a >>= f) := by
  intro l r e h
  rw [outcomeAt_then] at h
  cases hx : outcomeAt l r a with
  | error e' =>
    rw [hx] at h
    cases h
    exact ha l r e hx
  | ok x =>
    rw [hx] at h
    exact hf x l _ e h

end Fails

def Failure.IsLoading : Failure → Prop
  | .fetch .. | .decode .. | .source .. => True
  | _ => False

theorem isLoading_of_loaded {l : Library} {name location : String} {decode : Json → Option α}
    {e : Failure} (h : l.loaded name location decode = .error e) : e.IsLoading := by
  unfold Library.loaded Library.fetched at h
  cases ht : l.source.answer location with
  | error e' => rw [ht] at h; cases h; trivial
  | ok text =>
    rw [ht] at h
    change ((Json.parse? text).bind decode).elim _ _ = _ at h
    cases hd : (Json.parse? text).bind decode with
    | none => rw [hd] at h; cases h; trivial
    | some a => rw [hd] at h; cases h

namespace Fails

theorem load (name location : String) (decode : Json → Option α) :
    Fails Failure.IsLoading (Registry.load name location decode) := by
  intro l r e h
  rw [outcomeAt_load] at h
  exact isLoading_of_loaded h

theorem loadTables : Fails Failure.IsLoading Registry.loadTables := by
  unfold Registry.loadTables
  refine library.andThen fun _ => (load _ _ _).andThen fun _ => ?_
  exact (load _ _ _).andThen fun _ => (load _ _ _).andThen fun _ => ok _

theorem tables : Fails Failure.IsLoading Registry.tables := by
  intro l r e h
  rw [outcomeAt_tables] at h
  unfold Library.tablesAt at h
  cases hk : r.kept with
  | some t => rw [hk] at h; cases h
  | none =>
    rw [hk, Option.elim_none, ← outcomeAt_loadTables l r] at h
    exact loadTables l r e h

theorem document (name : String) : Fails Failure.IsLoading (Registry.document name) := by
  intro l r e h
  rw [outcomeAt_document] at h
  unfold Library.documentAt at h
  cases hk : r.documents.lookup name with
  | some d => rw [hk] at h; cases h
  | none =>
    rw [hk, Option.elim_none] at h
    cases ht : l.tablesAt r with
    | error e' =>
      rw [ht] at h
      cases h
      rw [← outcomeAt_tables] at ht
      exact tables l r e ht
    | ok t =>
      rw [ht] at h
      exact isLoading_of_loaded h

theorem parseFor (name source : String) :
    Fails Failure.IsLoading (liftM (parseFor name source) : Attempt Idl.Fragments) := by
  refine ofExcept fun e h => ?_
  unfold IdlDocs.parseFor at h
  cases hp : Idl.parse source with
  | ok fs => rw [hp] at h; cases h
  | error e' => rw [hp] at h; cases h; trivial

theorem definitionsOf (name : String) :
    Fails Failure.IsLoading (Registry.definitionsOf name) :=
  (document name).andThen fun _ => (parseFor name _).andThen fun _ => ok _

end Fails

/-! ## Inquiries -/

def InquiryFails (P : Failure → Prop) (a : Inquiry α) : Prop :=
  ∀ l r e, answerAt l r a = some (.error e) → P e

namespace InquiryFails

theorem ok (x : α) : InquiryFails P (pure x : Inquiry α) := by
  intro l r e h
  cases h

theorem ofAttempt {a : Attempt α} (ha : Fails P a) : InquiryFails P (liftM a : Inquiry α) := by
  intro l r e h
  rw [answerAt_ofAttempt] at h
  exact ha l r e (Option.some.inj h)

theorem ofSearch (a : Search α) : InquiryFails P (liftM a : Inquiry α) := by
  intro l r e h
  rw [answerAt_ofSearch] at h
  obtain ⟨x, -, hx⟩ := Option.map_eq_some_iff.1 h
  cases hx

theorem andThen {a : Inquiry α} {f : α → Inquiry β} (ha : InquiryFails P a)
    (hf : ∀ x, InquiryFails P (f x)) : InquiryFails P (a >>= f) := by
  intro l r e h
  rw [answerAt_then] at h
  rcases andThen_eq_error_iff.1 h with hx | ⟨x, -, hx⟩
  · exact ha l r e hx
  · exact hf x l _ e hx

end InquiryFails

end IdlDocs
