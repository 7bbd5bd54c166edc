import IdlDocs.Idl.Source

/-!
# Blanks between tokens

What the grammar takes for blank, and what may be left over at the end of a text, are two things.
The first is read by `skipBlank` and the second by `isBlankText`, which allows all blanks of
Unicode, lines of documentation, and a last line comment without a line break.

* `skipBlank_skipBlank`, `skipBlank_append`: **blanks can be skipped in two parts.**
* `afterLine?_of_notMem`, `afterBlock?_of_not_infix` and their converses: where a comment ends.
* `afterComment?_append`: a comment that ends does so in front of any text.
* `isBlankText_skipBlank`: skipping blanks does not change whether a text is blank.
* `docLine_apply`: a line of documentation.
-/

namespace IdlDocs.Idl

open Text Text.Parser

/-! ## Comments -/

theorem afterLine?_of_notMem {t : List Char} (h : '\n' ∉ t) (r : List Char) :
    afterLine? (t ++ '\n' :: r) = some r := by
  induction t with
  | nil => rfl
  | cons c t ih =>
    rw [List.mem_cons, not_or] at h
    rw [List.cons_append, afterLine?, if_neg (Ne.symm h.1), ih h.2]

theorem exists_line_of_afterLine? {s r : List Char} (h : afterLine? s = some r) :
    ∃ t, '\n' ∉ t ∧ s = t ++ '\n' :: r := by
  induction s with
  | nil => cases h
  | cons c s ih =>
    rw [afterLine?] at h
    by_cases hc : c = '\n'
    · rw [if_pos hc] at h
      cases h
      exact ⟨[], List.not_mem_nil, by rw [hc]; rfl⟩
    · rw [if_neg hc] at h
      obtain ⟨t, ht, rfl⟩ := ih h
      exact ⟨c :: t, by simp [ht, Ne.symm hc], rfl⟩

theorem afterLine?_append {s r : List Char} (h : afterLine? s = some r) (t : List Char) :
    afterLine? (s ++ t) = some (r ++ t) := by
  obtain ⟨l, hl, rfl⟩ := exists_line_of_afterLine? h
  rw [List.append_assoc]
  exact afterLine?_of_notMem hl (r ++ t)

theorem afterLine?_eq_none_iff {s : List Char} : afterLine? s = none ↔ '\n' ∉ s := by
  constructor
  · intro h hmem
    obtain ⟨t, r, rfl, ht⟩ := List.eq_append_cons_of_mem hmem
    rw [afterLine?_of_notMem ht] at h
    cases h
  · intro h
    cases hs : afterLine? s with
    | none => rfl
    | some r =>
      obtain ⟨t, -, rfl⟩ := exists_line_of_afterLine? hs
      exact absurd (by simp) h

theorem afterBlock?_cons {c : Char} {s : List Char} (h : c = '*' → s.head? ≠ some '/') :
    afterBlock? (c :: s) = afterBlock? s := by
  cases s with
  | nil => rw [afterBlock?]; exact nofun
  | cons d s =>
    rw [afterBlock?]
    rintro r rfl hr
    cases hr
    exact h rfl rfl

/-- A block ends at its first star in front of a slash. -/
theorem afterBlock?_of_not_infix {t : List Char} (h : ¬ ['*', '/'] <:+: t) (r : List Char) :
    afterBlock? (t ++ '*' :: '/' :: r) = some r := by
  induction t with
  | nil => rfl
  | cons c t ih =>
    rw [List.infix_cons_iff, not_or] at h
    rw [List.cons_append, afterBlock?_cons, ih h.2]
    rintro rfl hhead
    cases t with
    | nil => cases hhead
    | cons d t =>
      cases hhead
      exact h.1 ⟨t, rfl⟩

theorem exists_block_of_afterBlock? {s r : List Char} (h : afterBlock? s = some r) :
    ∃ t, ¬ ['*', '/'] <:+: t ∧ s = t ++ '*' :: '/' :: r := by
  fun_induction afterBlock? s with
  | case1 s => cases h; exact ⟨[], by simp, rfl⟩
  | case2 c s hstop ih =>
    obtain ⟨t, ht, rfl⟩ := ih h
    refine ⟨c :: t, ?_, rfl⟩
    rw [List.infix_cons_iff, not_or]
    refine ⟨?_, ht⟩
    rintro ⟨u, hu⟩
    cases hu
    exact hstop (u ++ '*' :: '/' :: r) rfl rfl
  | case3 => cases h

theorem afterBlock?_append {s r : List Char} (h : afterBlock? s = some r) (t : List Char) :
    afterBlock? (s ++ t) = some (r ++ t) := by
  obtain ⟨b, hb, rfl⟩ := exists_block_of_afterBlock? h
  rw [List.append_assoc]
  exact afterBlock?_of_not_infix hb (r ++ t)

theorem afterComment?_line {s : List Char} (h : s.head? ≠ some '/') :
    afterComment? ('/' :: '/' :: s) = afterLine? s := by
  rw [afterComment?]
  rintro r rfl
  exact h rfl

theorem afterComment?_block (s : List Char) : afterComment? ('/' :: '*' :: s) = afterBlock? s := rfl

theorem afterComment?_cases {s r : List Char} (h : afterComment? s = some r) :
    (∃ t, s = '/' :: '/' :: t ∧ t.head? ≠ some '/' ∧ afterLine? t = some r) ∨
      ∃ t, s = '/' :: '*' :: t ∧ afterBlock? t = some r := by
  fun_cases afterComment? s with
  | case1 => cases h
  | case2 t ht =>
    have hne : t.head? ≠ some '/' := by
      intro hhead
      obtain ⟨t', rfl⟩ := List.head?_eq_some_iff.1 hhead
      exact ht t' rfl
    exact .inl ⟨t, rfl, hne, (afterComment?_line hne).symm.trans h⟩
  | case3 t => exact .inr ⟨t, rfl, h⟩
  | case4 s h1 h2 h3 =>
    rw [afterComment?] at h
    · cases h
    all_goals assumption

/-- **A comment that ends does so in front of any text.** -/
theorem afterComment?_append {s r : List Char} (h : afterComment? s = some r) (t : List Char) :
    afterComment? (s ++ t) = some (r ++ t) := by
  rcases afterComment?_cases h with ⟨b, rfl, hb, hline⟩ | ⟨b, rfl, hblock⟩
  · have hhead : (b ++ t).head? ≠ some '/' := by
      cases b with
      | nil => cases hline
      | cons c b => exact hb
    exact (afterComment?_line hhead).trans (afterLine?_append hline t)
  · exact afterBlock?_append hblock t

theorem exists_of_afterLine? {s r : List Char} (h : afterLine? s = some r) :
    ∃ b, s = b ++ r ∧ afterLine? b = some [] := by
  obtain ⟨l, hl, rfl⟩ := exists_line_of_afterLine? h
  exact ⟨l ++ ['\n'], by simp, afterLine?_of_notMem hl []⟩

theorem exists_of_afterBlock? {s r : List Char} (h : afterBlock? s = some r) :
    ∃ b, s = b ++ r ∧ afterBlock? b = some [] := by
  obtain ⟨b, hb, rfl⟩ := exists_block_of_afterBlock? h
  exact ⟨b ++ ['*', '/'], by simp, afterBlock?_of_not_infix hb []⟩

theorem exists_of_afterComment? {s r : List Char} (h : afterComment? s = some r) :
    ∃ b, s = b ++ r ∧ afterComment? b = some [] := by
  rcases afterComment?_cases h with ⟨t, rfl, ht, hline⟩ | ⟨t, rfl, hblock⟩
  · obtain ⟨b, rfl, hb⟩ := exists_of_afterLine? hline
    refine ⟨'/' :: '/' :: b, rfl, ?_⟩
    rw [afterComment?_line, hb]
    cases b with
    | nil => cases hb
    | cons c b => exact ht
  · obtain ⟨b, rfl, hb⟩ := exists_of_afterBlock? hblock
    exact ⟨'/' :: '*' :: b, rfl, hb⟩

/-! ## Skipping blanks -/

theorem skipBlank_of_comment {s r : List Char} (h : afterComment? s = some r) :
    skipBlank s = skipBlank r := by
  rw [skipBlank]
  split
  · next r' h' => rw [h] at h'; cases h'; rfl
  · next h' => rw [h] at h'; cases h'

theorem head?_of_afterComment? {s r : List Char} (h : afterComment? s = some r) :
    s.head? = some '/' := by
  rcases afterComment?_cases h with ⟨t, rfl, -⟩ | ⟨t, rfl, -⟩
  · rfl
  · rfl

theorem afterComment?_of_ne {c : Char} {s : List Char} (hc : c ≠ '/') :
    afterComment? (c :: s) = none := by
  cases hs : afterComment? (c :: s) with
  | none => rfl
  | some r => exact absurd (Option.some.inj (head?_of_afterComment? hs)) hc

theorem ne_slash_of_isSpace {c : Char} (h : isSpace c = true) : c ≠ '/' := by
  rintro rfl
  exact absurd h (by decide)

theorem skipBlank_of_space {c : Char} {s : List Char} (h : isSpace c = true) :
    skipBlank (c :: s) = skipBlank s := by
  have hnone := afterComment?_of_ne (s := s) (ne_slash_of_isSpace h)
  rw [skipBlank]
  split
  · next h' => rw [hnone] at h'; cases h'
  · simp [h]

theorem skipBlank_nil : skipBlank [] = [] := by
  rw [skipBlank]
  split
  · next h => cases h
  · rfl

/-- Nothing is skipped of a text that starts with neither a comment nor a space. -/
theorem skipBlank_of_stop {c : Char} {s : List Char} (h : afterComment? (c :: s) = none)
    (hc : isSpace c = false) : skipBlank (c :: s) = c :: s := by
  rw [skipBlank]
  split
  · next h' => rw [h] at h'; cases h'
  · simp [hc]

/-- The three ways to skip blanks: a comment first, a space first, or nothing at all. -/
theorem skipBlank_cases {P : List Char → Prop} (comment : ∀ s r, afterComment? s = some r →
    P r → P s) (space : ∀ c s, isSpace c = true → P s → P (c :: s))
    (stop : ∀ s, skipBlank s = s → P s) (s : List Char) : P s := by
  induction hn : s.length using Nat.strongRecOn generalizing s with
  | ind n ih =>
    cases hs : afterComment? s with
    | some r => exact comment s r hs (ih r.length (hn ▸ afterComment?_length hs) r rfl)
    | none =>
      cases s with
      | nil => exact stop [] skipBlank_nil
      | cons c s =>
        cases hc : isSpace c with
        | true =>
          exact space c s hc (ih s.length (by simp only [← hn, List.length_cons]; omega) s rfl)
        | false => exact stop (c :: s) (skipBlank_of_stop hs hc)

theorem length_skipBlank_le (s : List Char) : (skipBlank s).length ≤ s.length := by
  induction s using skipBlank_cases with
  | comment s r h ih =>
    have := afterComment?_length h
    rw [skipBlank_of_comment h]
    omega
  | space c s h ih =>
    rw [skipBlank_of_space h, List.length_cons]
    omega
  | stop s h => exact Nat.le_of_eq (congrArg List.length h)

theorem afterComment?_of_skipBlank {s : List Char} (h : skipBlank s = s) :
    afterComment? s = none := by
  cases hs : afterComment? s with
  | none => rfl
  | some r =>
    have := afterComment?_length hs
    have := length_skipBlank_le r
    rw [skipBlank_of_comment hs] at h
    rw [h] at this
    omega

theorem isSpace_of_skipBlank {c : Char} {s : List Char} (h : skipBlank (c :: s) = c :: s) :
    isSpace c = false := by
  cases hc : isSpace c with
  | false => rfl
  | true =>
    have := length_skipBlank_le s
    rw [skipBlank_of_space hc] at h
    rw [h, List.length_cons] at this
    omega

theorem skipBlank_suffix (s : List Char) : skipBlank s <:+ s := by
  induction s using skipBlank_cases with
  | comment s r h ih =>
    obtain ⟨b, rfl, -⟩ := exists_of_afterComment? h
    rw [skipBlank_of_comment h]
    exact ih.trans (List.suffix_append b r)
  | space c s h ih =>
    rw [skipBlank_of_space h]
    exact ih.trans (List.suffix_cons c s)
  | stop s h => simp [h]

@[simp]
theorem skipBlank_skipBlank (s : List Char) : skipBlank (skipBlank s) = skipBlank s := by
  induction s using skipBlank_cases with
  | comment s r h ih => rw [skipBlank_of_comment h, ih]
  | space c s h ih => rw [skipBlank_of_space h, ih]
  | stop s h => rw [h, h]

/-! ## Blanks in front of a text -/

/-- **Blanks can be skipped in two parts.** -/
theorem skipBlank_append (s t : List Char) : skipBlank (skipBlank s ++ t) = skipBlank (s ++ t) := by
  induction s using skipBlank_cases with
  | comment s r h ih =>
    rw [skipBlank_of_comment h, ih, skipBlank_of_comment (afterComment?_append h t)]
  | space c s h ih => rw [skipBlank_of_space h, ih, List.cons_append, skipBlank_of_space h]
  | stop s h => rw [h]

theorem skipBlank_append_of_nil {s : List Char} (h : skipBlank s = []) (t : List Char) :
    skipBlank (s ++ t) = skipBlank t := by
  rw [← skipBlank_append, h, List.nil_append]

/-! ## Texts that may be left over -/

theorem isBlank_of_isSpace {c : Char} (h : isSpace c = true) : isBlank c = true := by
  simp only [isSpace, Bool.or_eq_true, beq_iff_eq] at h
  rcases h with ((rfl | rfl) | rfl) | rfl <;> rfl

theorem isBlank_of_trimStart {c : Char} {s r : List Char}
    (h : trimStart s = c :: r) : isBlank c = false := by
  have hhead := List.head?_dropWhile_not isBlank s
  unfold trimStart at h
  rw [h] at hhead
  exact hhead

theorem isBlankText_nil : isBlankText [] = true := by rw [isBlankText.eq_def]

theorem isBlankText_cons {c : Char} (s : List Char) (hc : c ≠ '/') :
    isBlankText (c :: s) = (isBlank c && isBlankText s) := by
  rw [isBlankText.eq_def]
  split
  · next he => cases he; exact absurd rfl hc
  · next he => cases he; exact absurd rfl hc
  · next he => cases he; rfl
  · next he => cases he

theorem isBlankText_line (s : List Char) :
    isBlankText ('/' :: '/' :: s) = isBlankText (afterLine s) := by
  rw [isBlankText.eq_def]
  rfl

theorem isBlankText_block (s : List Char) :
    isBlankText ('/' :: '*' :: s) = (afterBlock? s).any isBlankText := by
  rw [isBlankText.eq_def]
  simp only
  cases afterBlock? s <;> rfl

theorem isBlankText_of_afterComment? {s r : List Char} (h : afterComment? s = some r) :
    isBlankText s = isBlankText r := by
  rcases afterComment?_cases h with ⟨t, rfl, -, hline⟩ | ⟨t, rfl, hblock⟩
  · rw [isBlankText_line, afterLine, hline]
    rfl
  · rw [isBlankText_block, hblock]
    rfl

/-- **Skipping blanks does not change whether a text is blank.** -/
theorem isBlankText_skipBlank (s : List Char) : isBlankText (skipBlank s) = isBlankText s := by
  induction s using skipBlank_cases with
  | comment s r h ih => rw [skipBlank_of_comment h, ih, isBlankText_of_afterComment? h]
  | space c s h ih =>
    rw [skipBlank_of_space h, ih, isBlankText_cons s (ne_slash_of_isSpace h), isBlank_of_isSpace h,
      Bool.true_and]
  | stop s h => rw [h]

/-! ## Lines of documentation -/

theorem exactly_lineBreak (s : List Char) :
    exactly ['\n'] (s.dropWhile (· ≠ '\n')) = (afterLine? s).map ((), ·) := by
  induction s with
  | nil => rfl
  | cons c s ih =>
    by_cases hc : c = '\n'
    · subst hc
      rfl
    · rw [List.dropWhile_cons_of_pos (by simpa using hc), ih, afterLine?, if_neg hc]

def afterDoc? (s : List Char) : Option (List Char) :=
  (dropLead? ['/', '/', '/'] (s.dropWhile isSpace)).bind afterLine?

theorem docLine_apply (s : List Char) : docLine s = (afterDoc? s).map ((), ·) := by
  unfold docLine afterDoc?
  rw [bind_apply]
  change ((exactly ['/', '/', '/'] (s.dropWhile isSpace)).bind _) = _
  unfold exactly
  cases dropLead? ['/', '/', '/'] (s.dropWhile isSpace) with
  | none => rfl
  | some r => exact exactly_lineBreak r

theorem afterDoc?_of_space {c : Char} {s : List Char} (h : isSpace c = true) :
    afterDoc? (c :: s) = afterDoc? s := by
  unfold afterDoc?
  rw [List.dropWhile_cons_of_pos h]

theorem afterDoc?_of_ne {c : Char} {s : List Char} (hc : isSpace c = false) (h : c ≠ '/') :
    afterDoc? (c :: s) = none := by
  unfold afterDoc?
  rw [List.dropWhile_cons_of_neg (by simp [hc])]
  simp [dropLead?, Ne.symm h]

theorem afterDoc?_of_afterComment? {s r : List Char} (h : afterComment? s = some r) :
    afterDoc? s = none := by
  rcases afterComment?_cases h with ⟨t, rfl, ht, -⟩ | ⟨t, rfl, -⟩
  · cases t with
    | nil => rfl
    | cons c t =>
      have hc : '/' ≠ c := fun hc => ht (congrArg some hc.symm)
      simp [afterDoc?, isSpace, dropLead?, hc]
  · rfl

theorem afterDoc?_slashes (s : List Char) : afterDoc? ('/' :: '/' :: '/' :: s) = afterLine? s := rfl

theorem exists_of_afterDoc? {s r : List Char} (h : afterDoc? s = some r) :
    ∃ t, skipBlank s = '/' :: '/' :: '/' :: t ∧ afterLine? t = some r := by
  induction s with
  | nil => cases h
  | cons c s ih =>
    by_cases hc : isSpace c = true
    · rw [afterDoc?_of_space hc] at h
      rw [skipBlank_of_space hc]
      exact ih h
    · unfold afterDoc? at h
      rw [List.dropWhile_cons_of_neg hc] at h
      obtain ⟨t, ht, hr⟩ := Option.bind_eq_some_iff.1 h
      have hs := eq_append_of_dropLead? ht
      rw [hs]
      exact ⟨t, skipBlank_of_stop rfl (by decide), hr⟩

theorem afterDoc?_length {s r : List Char} (h : afterDoc? s = some r) : r.length < s.length := by
  obtain ⟨t, ht, hr⟩ := exists_of_afterDoc? h
  have hle := length_skipBlank_le s
  have := afterLine?_length hr
  rw [ht] at hle
  simp only [List.length_cons] at hle
  omega

end IdlDocs.Idl
