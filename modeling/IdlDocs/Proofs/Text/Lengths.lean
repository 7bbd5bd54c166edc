import IdlDocs.Proofs.Text.InStep

/-!
# What parsers take

A parser that takes at least one character is the measure of every recursion over a text.  One
part of it that takes something is enough, if the other parts put nothing in front of the rest.

* `Keeps`, `Shortens`: the rest is no longer than the text, and shorter than the text.
* `Keeps.bind`, `Keeps.orElse`, `Shortens.bind`, `Shortens.after`, `Shortens.orElse`: one law for
  each way to put parsers together.
* `Shortens.inStep`: **a parser that takes something is in step with itself** on texts of which
  it reads the same.
-/

namespace IdlDocs.Text.Parser

variable {α β : Type} {p q : Parser α} {f : α → Parser β}

def Keeps (p : Parser α) : Prop := ∀ s r a, p s = some (a, r) → r.length ≤ s.length

/-- The parser takes at least one character. -/
def Shortens (p : Parser α) : Prop := ∀ s r a, p s = some (a, r) → r.length < s.length

namespace Keeps

theorem pure (a : α) : Keeps (Pure.pure a) := by
  intro s r b h
  cases h
  exact Nat.le_refl _

theorem bind (hp : Keeps p) (hf : ∀ a, Keeps (f a)) : Keeps (p >>= f) := by
  intro s r b h
  rw [bind_apply] at h
  obtain ⟨x, hx, hb⟩ := Option.bind_eq_some_iff.1 h
  exact Nat.le_trans (hf _ _ _ _ hb) (hp _ _ _ hx)

theorem orElse (hp : Keeps p) (hq : Keeps q) : Keeps (p <|> q) := by
  intro s r a h
  rw [orElse_apply] at h
  rcases Option.or_eq_some_iff.1 h with h | ⟨-, h⟩
  · exact hp s r a h
  · exact hq s r a h

theorem map {g : α → β} (hp : Keeps p) : Keeps (g <$> p) := by
  intro s r b h
  rw [map_apply] at h
  obtain ⟨x, hx, hb⟩ := Option.map_eq_some_iff.1 h
  cases hb
  exact hp _ _ _ hx

theorem optional (hp : Keeps p) : Keeps (Parser.optional p) := .orElse hp.map (.pure none)

theorem present (hp : Keeps p) : Keeps (Parser.present p) := .orElse hp.map (.pure false)

theorem run (c : Char → Bool) : Keeps (Parser.run c) := by
  intro s r a h
  cases h
  exact (List.dropWhile_suffix c).length_le

theorem notBefore (c : Char → Bool) : Keeps (Parser.notBefore c) := by
  intro s r a h
  unfold Parser.notBefore at h
  split at h
  · split at h
    · cases h
    · cases h; exact Nat.le_refl _
  · cases h; exact Nat.le_refl _

end Keeps

namespace Shortens

theorem apply_nil (h : Shortens p) : p [] = none := by
  cases hp : p [] with
  | none => rfl
  | some x => exact absurd (h [] x.2 x.1 hp) (Nat.not_lt_zero _)

theorem keeps (h : Shortens p) : Keeps p := fun s r a hs => Nat.le_of_lt (h s r a hs)

theorem bind (hp : Shortens p) (hf : ∀ a, Keeps (f a)) : Shortens (p >>= f) := by
  intro s r b h
  rw [bind_apply] at h
  obtain ⟨x, hx, hb⟩ := Option.bind_eq_some_iff.1 h
  exact Nat.lt_of_le_of_lt (hf _ _ _ _ hb) (hp _ _ _ hx)

theorem after (hp : Keeps p) (hf : ∀ a, Shortens (f a)) : Shortens (p >>= f) := by
  intro s r b h
  rw [bind_apply] at h
  obtain ⟨x, hx, hb⟩ := Option.bind_eq_some_iff.1 h
  exact Nat.lt_of_lt_of_le (hf _ _ _ _ hb) (hp _ _ _ hx)

theorem orElse (hp : Shortens p) (hq : Shortens q) : Shortens (p <|> q) := by
  intro s r a h
  rw [orElse_apply] at h
  rcases Option.or_eq_some_iff.1 h with h | ⟨-, h⟩
  · exact hp s r a h
  · exact hq s r a h

theorem satisfy (c : Char → Bool) : Shortens (Parser.satisfy c) := by
  intro s r a h
  unfold Parser.satisfy at h
  split at h
  · split at h
    · cases h; exact Nat.lt_succ_self _
    · cases h
  · cases h

theorem run1 (c : Char → Bool) : Shortens (Parser.run1 c) :=
  (satisfy c).bind fun _ => (Keeps.run c).bind fun _ => .pure _

theorem exactly {w : List Char} (hw : w ≠ []) : Shortens (Parser.exactly w) := by
  intro s r a h
  obtain ⟨r', hr, he⟩ := Option.map_eq_some_iff.1 h
  cases he
  have := List.length_pos_iff.2 hw
  rw [eq_append_of_dropLead? hr, List.length_append]
  omega

/-- **A parser that takes something is in step with itself** on texts of which it reads the
same. -/
theorem inStep {R S : List Char → List Char → Prop} (h : Shortens p)
    (same : ∀ s t, R s t → p s = p t) (rest : ∀ s t r, R s t → r.length < s.length → S r r) :
    InStep R S Eq p p := by
  intro s t hst
  cases hs : p s with
  | none => exact .inl ⟨rfl, (same s t hst).symm.trans hs⟩
  | some x =>
    obtain ⟨a, r⟩ := x
    have ht : p t = some (a, r) := (same s t hst).symm.trans hs
    have hlt := h s r a hs
    exact .inr ⟨a, r, a, r, rfl, ht, rfl, rest s t r hst hlt, .inl ⟨hlt, h t r a ht⟩⟩

end Shortens

theorem items_congr {n : Nat} (h : ∀ t, t.length ≤ n → p t = q t) {s : List Char}
    (hs : s.length ≤ n) : items p s = items q s := by
  fun_induction items p s with
  | case1 s hp => rw [items_of_none ((h s hs).symm.trans hp)]
  | case2 s a r hp hr as t hitems ih =>
    rw [items_of_some ((h s hs).symm.trans hp) hr, ← ih (by omega), hitems]
  | case3 s a r hp hr => rw [items, ← h s hs, hp]; simp [hr]

/-- Two repetitions agree where their items do, if both of them end at a text of which neither item
reads anything.  By induction on the first one. -/
theorem items_agree {q : Parser β} {V : α → β → Prop} {E : List Char → Prop}
    (hitem : ∀ s a r b r', p s = some (a, r) → q s = some (b, r') → r' = r ∧ V a b)
    (hend : ∀ s, E s → p s = none ∧ q s = none) {s : List Char} (hp : E (items p s).2)
    (hq : E (items q s).2) :
    (items q s).2 = (items p s).2 ∧ List.Forall₂ V (items p s).1 (items q s).1 := by
  fun_induction items p s with
  | case1 s hnone =>
    rw [items_of_none (hend s hp).2]
    exact ⟨rfl, .nil⟩
  | case2 s a r ha hlt as t hitems ih =>
    rw [hitems] at ih
    cases hb : q s with
    | none =>
      rw [items_of_none hb] at hq
      rw [(hend s hq).1] at ha
      cases ha
    | some x =>
      obtain ⟨b, r'⟩ := x
      obtain ⟨rfl, hv⟩ := hitem s a r b r' ha hb
      rw [items_of_some hb hlt] at hq ⊢
      obtain ⟨hsame, hvs⟩ := ih hp hq
      exact ⟨hsame, .cons hv hvs⟩
  | case3 s a r ha hge =>
    rw [(hend s hp).1] at ha
    cases ha

end IdlDocs.Text.Parser
