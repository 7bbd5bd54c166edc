import IdlDocs.Text.Parser

/-!
# What parsers yield

A parser **yields** values with a property if it gives no others, whatever text it reads.
There is one law for each way to put parsers together.

* `Yields.bind`, `Yields.skip`: one parser after another, with and without what the first
  one yields.
* `Yields.orElse`, `Yields.map`, `Yields.optional`: choices and values.
* `Yields.many`: **a repetition yields what its item yields.**
-/

namespace IdlDocs.Text.Parser

variable {α β : Type} {P : α → Prop} {Q : β → Prop}

/-- Every value that the parser gives has the property. -/
def Yields (P : α → Prop) (p : Parser α) : Prop := ∀ s r a, p s = some (a, r) → P a

namespace Yields

theorem trivial {p : Parser α} : Yields (fun _ => True) p := fun _ _ _ _ => .intro

theorem pure {a : α} (h : P a) : Yields P (Pure.pure a) := by
  intro s r b hb
  cases hb
  exact h

theorem bind {p : Parser α} {f : α → Parser β} (hp : Yields P p)
    (hf : ∀ a, P a → Yields Q (f a)) : Yields Q (p >>= f) := by
  intro s r b hb
  rw [bind_apply] at hb
  obtain ⟨⟨a, t⟩, ha, hb⟩ := Option.bind_eq_some_iff.1 hb
  exact hf a (hp _ _ _ ha) _ _ _ hb

theorem skip {p : Parser α} {f : α → Parser β} (hf : ∀ a, Yields Q (f a)) :
    Yields Q (p >>= f) :=
  trivial.bind fun a _ => hf a

theorem orElse {p q : Parser α} (hp : Yields P p) (hq : Yields P q) : Yields P (p <|> q) := by
  intro s r a h
  rw [orElse_apply] at h
  cases hs : p s with
  | none =>
    rw [hs, Option.none_or] at h
    exact hq _ _ _ h
  | some x =>
    rw [hs, Option.some_or] at h
    cases h
    exact hp _ _ _ hs

theorem map {p : Parser α} {f : α → β} (hp : Yields (fun a => Q (f a)) p) :
    Yields Q (f <$> p) := by
  intro s r b h
  rw [map_apply] at h
  obtain ⟨⟨a, t⟩, ha, hb⟩ := Option.map_eq_some_iff.1 h
  cases hb
  exact hp _ _ _ ha

theorem optional {p : Parser α} (hp : Yields P p) :
    Yields (fun o => ∀ a, o = some a → P a) (Parser.optional p) := by
  refine orElse (map fun s r a ha b hb => ?_) (pure nofun)
  cases hb
  exact hp s r a ha

/-- By induction on the text: the rest after an item is shorter. -/
theorem forall_mem_items {p : Parser α} (hp : Yields P p) (s : List Char) :
    ∀ a ∈ (items p s).1, P a := by
  fun_induction items p s with
  | case1 => exact nofun
  | case2 s a r ha _ as t has ih =>
    intro b hb
    rw [has] at ih
    rcases List.mem_cons.1 hb with rfl | hb
    · exact hp _ _ _ ha
    · exact ih b hb
  | case3 => exact nofun

/-- **A repetition yields what its item yields.** -/
theorem many {p : Parser α} (hp : Yields P p) :
    Yields (fun as => ∀ a ∈ as, P a) (Parser.many p) := by
  intro s r as h
  have hitems : as = (items p s).1 := congrArg Prod.fst (Option.some.inj h).symm
  rw [hitems]
  exact forall_mem_items hp s

end Yields

end IdlDocs.Text.Parser
