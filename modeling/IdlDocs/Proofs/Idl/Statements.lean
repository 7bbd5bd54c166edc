import IdlDocs.Proofs.Idl.InStep.Characters

/-!
# Where a definition ends

A definition ends with the first semicolon that stands outside of all braces, comments and
quotes.  What follows this semicolon has no part in what is read, and neither have the characters
of comments.

* `Alike`: two texts that come to such a semicolon alike.
* `exists_alike_of_definition`: **a text from which a definition is read comes to such a
  semicolon**, and what is left stands behind it.
* `Alike.definition?`: **from texts that are alike, the same definition is read**, up to what
  stands in quotes.
* `exists_front_of_definition`: what stands behind the semicolon has no part in the definition.
* `statements`, `statements_cases`: the row of definitions of a text, and induction on it.
-/

namespace IdlDocs.Idl

open Text Text.Parser

/-- The texts come from the depth `k` of braces to a semicolon outside of all braces, behind which
`y` and `y'` stand, and are the same so far up to comments and what stands in quotes. -/
inductive Alike (V : String → String → Prop) (y y' : List Char) :
    Nat → List Char → List Char → Prop
  | done : Alike V y y' 0 (';' :: y) (';' :: y')
  | plain {k c s t} (hc : isPlain c = true) (h : Alike V y y' k s t) :
      Alike V y y' k (c :: s) (c :: t)
  | semicolon {k s t} (h : Alike V y y' (k + 1) s t) : Alike V y y' (k + 1) (';' :: s) (';' :: t)
  | openBrace {k s t} (h : Alike V y y' (k + 1) s t) :
      Alike V y y' k ('\x7b' :: s) ('\x7b' :: t)
  | closeBrace {k s t} (h : Alike V y y' k s t) :
      Alike V y y' (k + 1) ('\x7d' :: s) ('\x7d' :: t)
  | quoted {k s t q q' s' t'} (hs : afterQuote? s = some (q, s'))
      (ht : afterQuote? t = some (q', t')) (hq : V (String.ofList q) (String.ofList q'))
      (h : Alike V y y' k s' t') : Alike V y y' k ('"' :: s) ('"' :: t)
  | doc {k s t s' t'} (hs : afterLine? s = some s') (ht : afterLine? t = some t')
      (h : Alike V y y' k s' t') :
      Alike V y y' k ('/' :: '/' :: '/' :: s) ('/' :: '/' :: '/' :: t)
  | comment {k s t s' t'} (hs : afterComment? s = some s') (ht : afterComment? t = some t')
      (h : Alike V y y' k s' t') : Alike V y y' k s t

variable {V : String → String → Prop} {y y' s t : List Char} {k : Nat}

/-! ## What may follow -/

theorem Alike.exists_front (h : Alike V y y' k s t) :
    ∃ u, s = u ++ ';' :: y ∧ ∀ z z', Alike Eq z z' k (u ++ ';' :: z) (u ++ ';' :: z') := by
  induction h with
  | done => exact ⟨[], rfl, fun z z' => .done⟩
  | @plain k c s t hc h ih =>
    obtain ⟨u, rfl, hu⟩ := ih
    exact ⟨c :: u, rfl, fun z z' => .plain hc (hu z z')⟩
  | semicolon h ih =>
    obtain ⟨u, rfl, hu⟩ := ih
    exact ⟨';' :: u, rfl, fun z z' => .semicolon (hu z z')⟩
  | openBrace h ih =>
    obtain ⟨u, rfl, hu⟩ := ih
    exact ⟨'\x7b' :: u, rfl, fun z z' => .openBrace (hu z z')⟩
  | closeBrace h ih =>
    obtain ⟨u, rfl, hu⟩ := ih
    exact ⟨'\x7d' :: u, rfl, fun z z' => .closeBrace (hu z z')⟩
  | @quoted k s t q q' s' t' hs ht hq h ih =>
    obtain ⟨u, rfl, hu⟩ := ih
    obtain ⟨rfl, hmem⟩ := afterQuote?_eq_some_iff.1 hs
    refine ⟨'"' :: (q ++ '"' :: u), by simp, fun z z' => ?_⟩
    have hquote (z : List Char) : afterQuote? (q ++ '"' :: u ++ ';' :: z) =
        some (q, u ++ ';' :: z) := afterQuote?_eq_some_iff.2 ⟨by simp, hmem⟩
    exact .quoted (hquote z) (hquote z') rfl (hu z z')
  | doc hs ht h ih =>
    obtain ⟨u, rfl, hu⟩ := ih
    obtain ⟨b, rfl, hb⟩ := exists_of_afterLine? hs
    refine ⟨'/' :: '/' :: '/' :: (b ++ u), by simp, fun z z' => ?_⟩
    have hline (z : List Char) : afterLine? (b ++ u ++ ';' :: z) = some (u ++ ';' :: z) := by
      rw [List.append_assoc]
      exact afterLine?_append hb _
    exact .doc (hline z) (hline z') (hu z z')
  | comment hs ht h ih =>
    obtain ⟨u, rfl, hu⟩ := ih
    obtain ⟨b, rfl, hb⟩ := exists_of_afterComment? hs
    refine ⟨b ++ u, by simp, fun z z' => ?_⟩
    have hcomment (z : List Char) : afterComment? (b ++ u ++ ';' :: z) = some (u ++ ';' :: z) := by
      rw [List.append_assoc]
      exact afterComment?_append hb _
    exact .comment (hcomment z) (hcomment z') (hu z z')

/-- Blanks alone never come to such a semicolon. -/
theorem Alike.isBlankText_eq_false (h : Alike V y y' k s t) : isBlankText s = false := by
  induction h with
  | done => rw [isBlankText_cons _ (by decide)]; rfl
  | @plain k c s t hc h ih =>
    rw [isBlankText_cons s (by rintro rfl; exact absurd hc (by decide)), ih, Bool.and_false]
  | semicolon h ih => rw [isBlankText_cons _ (by decide), ih, Bool.and_false]
  | openBrace h ih => rw [isBlankText_cons _ (by decide), ih, Bool.and_false]
  | closeBrace h ih => rw [isBlankText_cons _ (by decide), ih, Bool.and_false]
  | quoted => rw [isBlankText_cons _ (by decide)]; rfl
  | @doc k s t s' t' hs ht h ih =>
    have hline : afterLine ('/' :: s) = s' := congrArg (Option.getD · []) hs
    rw [isBlankText_line, hline, ih]
  | comment hs ht h ih => rw [isBlankText_of_afterComment? hs, ih]

/-! ## Texts that are alike are read in step -/

/-- The blanks in front of two texts that are alike end in step. -/
theorem Alike.skipBlank (h : Alike V y y' k s t) :
    Alike V y y' k (skipBlank s) (skipBlank t) ∧ GoesOn s t (skipBlank s) (skipBlank t) := by
  have hstop {k c s t} (hc : isSpace c = false) (hs : afterComment? (c :: s) = none)
      (ht : afterComment? (c :: t) = none) (h : Alike V y y' k (c :: s) (c :: t)) :
      Alike V y y' k (Idl.skipBlank (c :: s)) (Idl.skipBlank (c :: t)) ∧
        GoesOn (c :: s) (c :: t) (Idl.skipBlank (c :: s)) (Idl.skipBlank (c :: t)) := by
    rw [skipBlank_of_stop hs hc, skipBlank_of_stop ht hc]
    exact ⟨h, .refl _ _⟩
  induction h with
  | done => exact hstop rfl rfl rfl .done
  | @plain k c s t hc h ih =>
    have hne : c ≠ '/' := by rintro rfl; exact absurd hc (by decide)
    cases hspace : isSpace c with
    | false => exact hstop hspace (afterComment?_of_ne hne) (afterComment?_of_ne hne) (.plain hc h)
    | true =>
      rw [skipBlank_of_space hspace, skipBlank_of_space hspace]
      have := length_skipBlank_le s
      have := length_skipBlank_le t
      refine ⟨ih.1, .inl ?_⟩
      simp only [List.length_cons]
      omega
  | semicolon h ih => exact hstop rfl rfl rfl (.semicolon h)
  | openBrace h ih => exact hstop rfl rfl rfl (.openBrace h)
  | closeBrace h ih => exact hstop rfl rfl rfl (.closeBrace h)
  | quoted hs ht hq h ih => exact hstop rfl rfl rfl (.quoted hs ht hq h)
  | doc hs ht h ih => exact hstop rfl rfl rfl (.doc hs ht h)
  | comment hs ht h ih =>
    rw [skipBlank_of_comment hs, skipBlank_of_comment ht]
    have := afterComment?_length hs
    have := afterComment?_length ht
    have := ih.2.length_le
    exact ⟨ih.1, .inl (by omega)⟩

/-- Lines of documentation end in step. -/
theorem Alike.afterDoc? (h : Alike V y y' k s t) :
    Option.Rel (Alike V y y' k) (afterDoc? s) (afterDoc? t) := by
  have hnone {k c s t} (hc : isSpace c = false) (hne : c ≠ '/') :
      Option.Rel (Alike V y y' k) (Idl.afterDoc? (c :: s)) (Idl.afterDoc? (c :: t)) := by
    rw [afterDoc?_of_ne hc hne, afterDoc?_of_ne hc hne]
    exact .none
  induction h with
  | done => exact hnone rfl (by decide)
  | @plain k c s t hc h ih =>
    cases hspace : isSpace c with
    | false => exact hnone hspace (by rintro rfl; exact absurd hc (by decide))
    | true =>
      rw [afterDoc?_of_space hspace, afterDoc?_of_space hspace]
      exact ih
  | semicolon => exact hnone rfl (by decide)
  | openBrace => exact hnone rfl (by decide)
  | closeBrace => exact hnone rfl (by decide)
  | quoted => exact hnone rfl (by decide)
  | doc hs ht h ih =>
    rw [afterDoc?_slashes, afterDoc?_slashes, hs, ht]
    exact .some h
  | comment hs ht h ih =>
    rw [afterDoc?_of_afterComment? hs, afterDoc?_of_afterComment? ht]
    exact .none

theorem charsInStep_alike (V : String → String → Prop) (y y' : List Char) :
    CharsInStep (Alike V y y') (fun r r' => r = skipBlank y ∧ r' = skipBlank y') V where
  head k s t h := by
    cases h with
    | comment hs ht => rw [head?_of_afterComment? hs, head?_of_afterComment? ht]
    | _ => rfl
  plain k c s t hc h := by
    cases h with
    | plain _ h => exact h
    | comment hs =>
      rw [afterComment?_of_ne (by rintro rfl; exact absurd hc (by decide))] at hs
      cases hs
    | _ => exact absurd hc (by decide)
  blank k s t h := .inr ⟨(), _, (), _, rfl, rfl, rfl, h.skipBlank⟩
  quoted k s t h := by
    cases h with
    | plain hc => exact absurd hc (by decide)
    | quoted hs ht hq h =>
      rw [hs, ht]
      exact .some ⟨hq, h⟩
    | comment hs => cases hs
  doc k s t h := h.afterDoc?
  openBrace k s t h := by
    cases h with
    | plain hc => exact absurd hc (by decide)
    | openBrace h => exact h
    | comment hs => cases hs
  closeBrace k s t h := by
    cases h with
    | plain hc => exact absurd hc (by decide)
    | closeBrace h => exact h
    | comment hs => cases hs
  semicolon k s t h := by
    cases h with
    | plain hc => exact absurd hc (by decide)
    | semicolon h => exact h
    | comment hs => cases hs
  last s t h := by
    cases h with
    | done => exact ⟨rfl, rfl⟩
    | plain hc => exact absurd hc (by decide)
    | comment hs => cases hs

/-! ## Every definition comes to its semicolon -/

/-- A text comes from the depth `k` of braces to a semicolon outside of all braces. -/
def Closes (k : Nat) (s : List Char) : Prop := ∃ y, Alike Eq y y k s s

theorem goesOn_skipBlank (s : List Char) : GoesOn s s (skipBlank s) (skipBlank s) := by
  induction s using skipBlank_cases with
  | comment s r hr ih =>
    have := afterComment?_length hr
    have := length_skipBlank_le r
    rw [skipBlank_of_comment hr]
    exact .inl (by omega)
  | space c s hc ih =>
    have := length_skipBlank_le s
    rw [skipBlank_of_space hc]
    refine .inl ?_
    simp only [List.length_cons]
    omega
  | stop s hs => exact .inr ⟨hs, hs⟩

theorem closes_of_skipBlank : Closes k (skipBlank s) → Closes k s := by
  induction s using skipBlank_cases with
  | comment s r hr ih =>
    rw [skipBlank_of_comment hr]
    intro h
    obtain ⟨y, hy⟩ := ih h
    exact ⟨y, .comment hr hr hy⟩
  | space c s hc ih =>
    rw [skipBlank_of_space hc]
    intro h
    obtain ⟨y, hy⟩ := ih h
    exact ⟨y, .plain (isPlain_of_class (by decide) c hc) hy⟩
  | stop s hs =>
    rw [hs]
    exact id

theorem closes_of_afterDoc? {r : List Char} (hr : afterDoc? s = some r) :
    Closes k r → Closes k s := by
  obtain ⟨t, ht, hline⟩ := exists_of_afterDoc? hr
  rintro ⟨y, hy⟩
  refine closes_of_skipBlank ⟨y, ?_⟩
  rw [ht]
  exact .doc hline hline hy

/-- A text that does not come to such a semicolon is read in step with itself, so that no
definition is read from it. -/
theorem charsInStep_not_closes :
    CharsInStep (fun k s t => s = t ∧ ¬ Closes k s) (fun _ _ => False) Eq where
  head := by
    rintro k s t ⟨rfl, -⟩
    rfl
  plain := by
    rintro k c s t hc ⟨he, h⟩
    cases he
    exact ⟨rfl, fun ⟨y, hy⟩ => h ⟨y, .plain hc hy⟩⟩
  blank := by
    rintro k s t ⟨rfl, h⟩
    exact .inr ⟨(), _, (), _, rfl, rfl, rfl,
      ⟨rfl, fun hclose => h (closes_of_skipBlank hclose)⟩, goesOn_skipBlank s⟩
  quoted := by
    rintro k s t ⟨he, h⟩
    cases he
    cases hs : afterQuote? s with
    | none => exact .none
    | some x => exact .some ⟨rfl, rfl, fun ⟨y, hy⟩ => h ⟨y, .quoted hs hs rfl hy⟩⟩
  doc := by
    rintro k s t ⟨rfl, h⟩
    cases hs : afterDoc? s with
    | none => exact .none
    | some r => exact .some ⟨rfl, fun hclose => h (closes_of_afterDoc? hs hclose)⟩
  openBrace := by
    rintro k s t ⟨he, h⟩
    cases he
    exact ⟨rfl, fun ⟨y, hy⟩ => h ⟨y, .openBrace hy⟩⟩
  closeBrace := by
    rintro k s t ⟨he, h⟩
    cases he
    exact ⟨rfl, fun ⟨y, hy⟩ => h ⟨y, .closeBrace hy⟩⟩
  semicolon := by
    rintro k s t ⟨he, h⟩
    cases he
    exact ⟨rfl, fun ⟨y, hy⟩ => h ⟨y, .semicolon hy⟩⟩
  last := by
    rintro s t ⟨he, h⟩
    cases he
    exact h ⟨s, .done⟩

/-! ## Definitions -/

/-- **A text from which a definition is read comes to a semicolon** outside of all braces, and
what is left stands behind it. -/
theorem exists_alike_of_definition {o : Option Definition} {r : List Char}
    (h : definition? s = some (o, r)) : ∃ y, Alike Eq y y 0 s s ∧ r = skipBlank y := by
  have hcloses : Closes 0 s := by
    by_contra hnot
    have htokens := charsInStep_not_closes.tokens
    obtain ⟨-, -, -, -, hfalse, -⟩ :=
      (htokens.definition (htokens.levelAt s.length)).exists_of_some ⟨rfl, hnot⟩ h
    exact hfalse
  obtain ⟨y, hy⟩ := hcloses
  have htokens := (charsInStep_alike Eq y y).tokens
  obtain ⟨_, _, -, -, hr, -⟩ :=
    (htokens.definition (htokens.levelAt s.length)).exists_of_some hy h
  exact ⟨y, hy, hr.1⟩

/-- **From texts that are alike, the same definition is read**, up to what stands in quotes. -/
theorem Alike.definition? (h : Alike V y y' 0 s t) {o : Option Definition} {r : List Char}
    (hs : definition? s = some (o, r)) :
    ∃ o', definition? t = some (o', Idl.skipBlank y') ∧ Option.Rel (Definition.Like V) o o' := by
  have htokens := (charsInStep_alike V y y').tokens
  rw [← definition_eq (Nat.le_max_left s.length t.length)] at hs
  rw [← definition_eq (Nat.le_max_right s.length t.length)]
  obtain ⟨o', r', ht, hlike, hr, -⟩ :=
    (htokens.definition (htokens.levelAt _)).exists_of_some h hs
  exact ⟨o', hr.2 ▸ ht, hlike⟩

/-- **What stands behind the semicolon has no part in the definition**, nor in the blanks in front
of it. -/
theorem exists_front_of_definition {o : Option Definition} {r : List Char}
    (h : definition? s = some (o, r)) :
    ∃ u y, s = u ++ ';' :: y ∧ r = skipBlank y ∧
      ∀ z, definition? (u ++ ';' :: z) = some (o, skipBlank z) ∧
        (skipBlank s = s → skipBlank (u ++ ';' :: z) = u ++ ';' :: z) := by
  obtain ⟨y, hy, hr⟩ := exists_alike_of_definition h
  obtain ⟨u, rfl, hu⟩ := hy.exists_front
  refine ⟨u, y, rfl, hr, fun z => ⟨?_, fun hskip => ?_⟩⟩
  · obtain ⟨o', hz, hlike⟩ := (hu y z).definition? h
    rw [hz, eq_of_like hlike]
  · rcases (hu y z).skipBlank.2 with ⟨hlt, -⟩ | ⟨-, hsame⟩
    · rw [hskip] at hlt
      exact absurd hlt (Nat.lt_irrefl _)
    · exact hsame

theorem definition?_of_isBlankText (h : isBlankText s = true) : definition? s = none := by
  cases hs : definition? s with
  | none => rfl
  | some x =>
    obtain ⟨y, hy, -⟩ := exists_alike_of_definition hs
    rw [hy.isBlankText_eq_false] at h
    cases h

theorem length_of_definition {o : Option Definition} {r : List Char}
    (h : definition? s = some (o, r)) : r.length < s.length := by
  obtain ⟨u, y, rfl, rfl, -⟩ := exists_front_of_definition h
  have := length_skipBlank_le y
  simp only [List.length_append, List.length_cons]
  omega

/-! ## Rows of definitions -/

def statements (s : List Char) : List (Option Definition) × List Char :=
  items (definition (levelAt s.length)) s

theorem statements_of_none (h : definition? s = none) : statements s = ([], s) := items_of_none h

theorem statements_of_some {o : Option Definition} {r : List Char}
    (h : definition? s = some (o, r)) :
    statements s = (o :: (statements r).1, (statements r).2) := by
  have hr := length_of_definition h
  have hfirst := items_of_some (p := definition (levelAt s.length)) h hr
  have hrest : items (definition (levelAt s.length)) r = statements r :=
    items_congr (n := r.length)
      (fun t ht => (definition_eq (by omega)).trans (definition_eq ht).symm) (Nat.le_refl _)
  rw [hrest] at hfirst
  exact hfirst

/-- A text from which no definition is read, or a definition in front of such a row. -/
theorem statements_cases {P : List Char → Prop} (stop : ∀ s, definition? s = none → P s)
    (next : ∀ s o r, definition? s = some (o, r) → P r → P s) (s : List Char) : P s := by
  induction hn : s.length using Nat.strongRecOn generalizing s with
  | ind n ih =>
    cases hs : definition? s with
    | none => exact stop s hs
    | some x => exact next s x.1 x.2 hs (ih x.2.length (hn ▸ length_of_definition hs) x.2 rfl)

theorem readDefinitions_eq (s : List Char) :
    readDefinitions s = ((statements s).1.filterMap id, (statements s).2) := rfl

end IdlDocs.Idl
