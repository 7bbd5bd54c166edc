import IdlDocs.Text.Parser
import Mathlib.Data.List.Forall2

/-!
# Parsers in step

Two parsers are **in step** on two texts if both refuse, or both give a value and leave related
rests.  They also go on together: either both of them have taken something, or both rests are the
whole texts.  This last part is what keeps two repetitions in step, which stop where an item
takes nothing.

* `InStep`: parsers in step, for a relation on the texts, one on the rests and one on the values.
* `InStep.bind`, `InStep.orElse`, `InStep.map`, `InStep.optional`, `InStep.list1`: one law for each
  way to put parsers together.
* `InStep.many`: **repetitions of items in step are in step.**
-/

namespace IdlDocs.Text.Parser

variable {α β γ δ : Type}

/-- The rests of two texts are both shorter than the texts, or both of them the whole texts. -/
def GoesOn (s t s' t' : List Char) : Prop :=
  (s'.length < s.length ∧ t'.length < t.length) ∨ (s' = s ∧ t' = t)

namespace GoesOn

variable {s t s' t' s'' t'' : List Char}

theorem refl (s t : List Char) : GoesOn s t s t := .inr ⟨rfl, rfl⟩

theorem trans (h : GoesOn s t s' t') (h' : GoesOn s' t' s'' t'') : GoesOn s t s'' t'' := by
  rcases h with ⟨hs, ht⟩ | ⟨rfl, rfl⟩
  · rcases h' with ⟨hs', ht'⟩ | ⟨rfl, rfl⟩
    · exact .inl ⟨by omega, by omega⟩
    · exact .inl ⟨hs, ht⟩
  · exact h'

theorem length_le (h : GoesOn s t s' t') : s'.length ≤ s.length ∧ t'.length ≤ t.length := by
  rcases h with ⟨hs, ht⟩ | ⟨rfl, rfl⟩
  · exact ⟨by omega, by omega⟩
  · exact ⟨by omega, by omega⟩

end GoesOn

/-- On texts that `R` relates, both parsers refuse, or they give values that `V` relates and go
on together, with rests that `S` relates. -/
def InStep (R S : List Char → List Char → Prop) (V : α → β → Prop) (p : Parser α)
    (q : Parser β) : Prop :=
  ∀ s t, R s t → (p s = none ∧ q t = none) ∨
    ∃ a s' b t', p s = some (a, s') ∧ q t = some (b, t') ∧ V a b ∧ S s' t' ∧ GoesOn s t s' t'

namespace InStep

variable {R R' S S' T : List Char → List Char → Prop} {V V' : α → β → Prop} {W : γ → δ → Prop}

theorem pure {a : α} {b : β} (h : V a b) : InStep R R V (Pure.pure a) (Pure.pure b) :=
  fun s t hst => .inr ⟨a, s, b, t, rfl, rfl, h, hst, .refl s t⟩

theorem fail : InStep R S V (failure : Parser α) (failure : Parser β) :=
  fun _ _ _ => .inl ⟨rfl, rfl⟩

theorem mono {p : Parser α} {q : Parser β} (h : InStep R S V p q)
    (hR : ∀ s t, R' s t → R s t) (hS : ∀ s t, S s t → S' s t) (hV : ∀ a b, V a b → V' a b) :
    InStep R' S' V' p q := by
  intro s t hst
  rcases h s t (hR s t hst) with hnone | ⟨a, s', b, t', hp, hq, hv, hrest, hgo⟩
  · exact .inl hnone
  · exact .inr ⟨a, s', b, t', hp, hq, hV a b hv, hS s' t' hrest, hgo⟩

theorem bind {p : Parser α} {q : Parser β} {f : α → Parser γ} {g : β → Parser δ}
    (h : InStep R S V p q) (hf : ∀ a b, V a b → InStep S T W (f a) (g b)) :
    InStep R T W (p >>= f) (q >>= g) := by
  intro s t hst
  rw [bind_apply, bind_apply]
  rcases h s t hst with ⟨hp, hq⟩ | ⟨a, s', b, t', hp, hq, hv, hrest, hgo⟩
  · rw [hp, hq]
    exact .inl ⟨rfl, rfl⟩
  · rw [hp, hq]
    rcases hf a b hv s' t' hrest with hnone | ⟨c, s'', d, t'', hc, hd, hw, hrest', hgo'⟩
    · exact .inl hnone
    · exact .inr ⟨c, s'', d, t'', hc, hd, hw, hrest', hgo.trans hgo'⟩

/-- One parser after another, where the first ones give the same value. -/
theorem seq {p q : Parser α} {f : α → Parser γ} {g : α → Parser δ} (h : InStep R S Eq p q)
    (hf : ∀ a, InStep S T W (f a) (g a)) : InStep R T W (p >>= f) (q >>= g) :=
  h.bind fun a b hab => by subst hab; exact hf a

theorem orElse {p p' : Parser α} {q q' : Parser β} (h : InStep R S V p q)
    (h' : InStep R S V p' q') : InStep R S V (p <|> p') (q <|> q') := by
  intro s t hst
  rw [orElse_apply, orElse_apply]
  rcases h s t hst with ⟨hp, hq⟩ | ⟨a, s', b, t', hp, hq, hrest⟩
  · rw [hp, hq]
    exact h' s t hst
  · rw [hp, hq]
    exact .inr ⟨a, s', b, t', rfl, rfl, hrest⟩

theorem map {p : Parser α} {q : Parser β} {f : α → γ} {g : β → δ} (h : InStep R S V p q)
    (hf : ∀ a b, V a b → W (f a) (g b)) : InStep R S W (f <$> p) (g <$> q) := by
  intro s t hst
  rw [map_apply, map_apply]
  rcases h s t hst with ⟨hp, hq⟩ | ⟨a, s', b, t', hp, hq, hv, hrest⟩
  · rw [hp, hq]
    exact .inl ⟨rfl, rfl⟩
  · rw [hp, hq]
    exact .inr ⟨f a, s', g b, t', rfl, rfl, hf a b hv, hrest⟩

theorem optional {p q : Parser α} (h : InStep R R Eq p q) :
    InStep R R Eq (Parser.optional p) (Parser.optional q) :=
  .orElse (h.map fun _ _ => congrArg some) (.pure rfl)

theorem present {p : Parser α} {q : Parser β} (h : InStep R R V p q) :
    InStep R R Eq (Parser.present p) (Parser.present q) :=
  .orElse (h.map fun _ _ _ => rfl) (.pure rfl)

/-- The first that does not refuse of parsers, one of them for each element of a list. -/
theorem firstOf {ι : Type} (is : List ι) {f : ι → Parser α} {g : ι → Parser β}
    (h : ∀ i ∈ is, InStep R S V (f i) (g i)) :
    InStep R S V (Parser.firstOf (is.map f)) (Parser.firstOf (is.map g)) := by
  induction is with
  | nil => exact fail
  | cons i is ih =>
    exact .orElse (h i List.mem_cons_self) (ih fun j hj => h j (List.mem_cons_of_mem i hj))

/-- By strong induction on the length of the text: the rest after an item that takes something
is shorter, and an item that takes nothing ends both repetitions. -/
theorem items {p : Parser α} {q : Parser β} (h : InStep R R V p q) (n : Nat) :
    ∀ s t, s.length = n → R s t →
      List.Forall₂ V (Parser.items p s).1 (Parser.items q t).1 ∧
        R (Parser.items p s).2 (Parser.items q t).2 ∧
        GoesOn s t (Parser.items p s).2 (Parser.items q t).2 := by
  induction n using Nat.strongRecOn with
  | ind n ih =>
    intro s t hn hst
    rcases h s t hst with ⟨hp, hq⟩ | ⟨a, s', b, t', hp, hq, hv, hrest, hgo⟩
    · rw [items_of_none hp, items_of_none hq]
      exact ⟨.nil, hst, .refl s t⟩
    · rcases hgo with ⟨hs, ht⟩ | ⟨rfl, rfl⟩
      · obtain ⟨hvs, hR, hgo'⟩ := ih s'.length (hn ▸ hs) s' t' rfl hrest
        rw [items_of_some hp hs, items_of_some hq ht]
        exact ⟨.cons hv hvs, hR, .trans (.inl ⟨hs, ht⟩) hgo'⟩
      · rw [items_of_same hp, items_of_same hq]
        exact ⟨.nil, hst, .refl s' t'⟩

/-- **Repetitions of items in step are in step.** -/
theorem many {p : Parser α} {q : Parser β} (h : InStep R R V p q) :
    InStep R R (List.Forall₂ V) (Parser.many p) (Parser.many q) :=
  fun s t hst => .inr ⟨_, _, _, _, rfl, rfl, h.items s.length s t rfl hst⟩

theorem list1 {p : Parser α} {q : Parser β} {sep : Parser γ} {sep' : Parser δ}
    (h : InStep R R V p q) (hsep : InStep R R W sep sep') :
    InStep R R (List.Forall₂ V) (Parser.list1 p sep) (Parser.list1 q sep') :=
  h.bind fun _ _ hab => (InStep.many (hsep.bind fun _ _ _ => h)).bind fun _ _ habs =>
    .pure (.cons hab habs)

theorem list0 {p : Parser α} {q : Parser β} {sep : Parser γ} {sep' : Parser δ}
    (h : InStep R R V p q) (hsep : InStep R R W sep sep') :
    InStep R R (List.Forall₂ V) (Parser.list0 p sep) (Parser.list0 q sep') :=
  .orElse (h.list1 hsep) (.pure .nil)

theorem eq_of_forall₂ {p q : Parser (List α)} (h : InStep R S (List.Forall₂ Eq) p q) :
    InStep R S Eq p q :=
  h.mono (fun _ _ => id) (fun _ _ => id) fun _ _ hab => List.forall₂_eq_eq_eq ▸ hab

theorem exists_of_some {p : Parser α} {q : Parser β} (h : InStep R S V p q) {s t s' : List Char}
    {a : α} (hst : R s t) (hp : p s = some (a, s')) :
    ∃ b t', q t = some (b, t') ∧ V a b ∧ S s' t' ∧ GoesOn s t s' t' := by
  rcases h s t hst with ⟨hnone, -⟩ | ⟨a', s'', b, t', hp', hq, hrest⟩
  · rw [hp] at hnone
    cases hnone
  · rw [hp] at hp'
    cases hp'
    exact ⟨b, t', hq, hrest⟩

end InStep

end IdlDocs.Text.Parser
