import IdlDocs.Text.Parser

/-!
# What parsers leave as it was

What can be said of a text may be true of the rest as well that a parser leaves, whatever it has
read.  One part after another leaves it as it was, and so do choices and repetitions.

* `Leaves`: the rest has the same of something as the text.
* `Leaves.bind`, `Leaves.orElse`, `Leaves.map`, `Leaves.firstOf`: one law for each way to put
  parsers together.
* `Leaves.many`: **a repetition leaves what its item leaves.**
-/

namespace IdlDocs.Text.Parser

variable {α β γ : Type} {f : List Char → γ} {p q : Parser α}

/-- The rest that a parser leaves has the same `f` as the text. -/
def Leaves (f : List Char → γ) (p : Parser α) : Prop := ∀ s r a, p s = some (a, r) → f r = f s

namespace Leaves

theorem pure (a : α) : Leaves f (Pure.pure a) := by
  intro s r b h
  cases h
  rfl

theorem fail : Leaves f (failure : Parser α) := by
  intro s r a h
  cases h

theorem bind {g : α → Parser β} (hp : Leaves f p) (hg : ∀ a, Leaves f (g a)) :
    Leaves f (p >>= g) := by
  intro s r b h
  rw [bind_apply] at h
  obtain ⟨x, hx, hb⟩ := Option.bind_eq_some_iff.1 h
  rw [hg _ _ _ _ hb, hp _ _ _ hx]

theorem orElse (hp : Leaves f p) (hq : Leaves f q) : Leaves f (p <|> q) := by
  intro s r a h
  rw [orElse_apply] at h
  rcases Option.or_eq_some_iff.1 h with h | ⟨-, h⟩
  · exact hp s r a h
  · exact hq s r a h

theorem map {g : α → β} (hp : Leaves f p) : Leaves f (g <$> p) := by
  intro s r b h
  rw [map_apply] at h
  obtain ⟨x, hx, hb⟩ := Option.map_eq_some_iff.1 h
  cases hb
  exact hp _ _ _ hx

theorem optional (hp : Leaves f p) : Leaves f (Parser.optional p) := .orElse hp.map (.pure none)

theorem present (hp : Leaves f p) : Leaves f (Parser.present p) := .orElse hp.map (.pure false)

/-- The first that does not refuse of parsers, one of them for each element of a list. -/
theorem firstOf {ι : Type} (is : List ι) {g : ι → Parser α} (h : ∀ i ∈ is, Leaves f (g i)) :
    Leaves f (Parser.firstOf (is.map g)) := by
  induction is with
  | nil => exact fail
  | cons i is ih =>
    exact .orElse (h i List.mem_cons_self) (ih fun j hj => h j (List.mem_cons_of_mem i hj))

theorem forM {ι : Type} (is : List ι) {g : ι → Parser Unit} (h : ∀ i ∈ is, Leaves f (g i)) :
    Leaves f (is.forM g) := by
  induction is with
  | nil => exact .pure ()
  | cons i is ih =>
    exact (h i List.mem_cons_self).bind fun _ => ih fun j hj => h j (List.mem_cons_of_mem i hj)

/-- By induction on the text: the rest after an item is shorter. -/
theorem items (hp : Leaves f p) (s : List Char) : f (Parser.items p s).2 = f s := by
  fun_induction Parser.items p s with
  | case1 => rfl
  | case2 s a r ha _ as t has ih =>
    rw [has] at ih
    show f t = f s
    rw [ih, hp _ _ _ ha]
  | case3 => rfl

/-- **A repetition leaves what its item leaves.** -/
theorem many (hp : Leaves f p) : Leaves f (Parser.many p) := by
  intro s r as h
  have hrest : r = (Parser.items p s).2 := congrArg Prod.snd (Option.some.inj h).symm
  rw [hrest]
  exact hp.items s

theorem list0 {sep : Parser β} (hp : Leaves f p) (hsep : Leaves f sep) :
    Leaves f (Parser.list0 p sep) := by
  refine .orElse (hp.bind fun _ => ?_) (.pure [])
  exact (many (hsep.bind fun _ => hp)).bind fun _ => .pure _

end Leaves

end IdlDocs.Text.Parser
