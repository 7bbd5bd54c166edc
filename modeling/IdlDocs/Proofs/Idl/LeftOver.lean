import IdlDocs.Proofs.Idl.Blanks

/-!
# What may be left over

Behind the last definition of a text only blanks and comments may stand.  Such a text comes apart
into pieces: blank characters, line comments with their line breaks, closed block comments, and at
its end a line comment that has no line break.

* `BlankPiece`, `MadeOfBlanks`: the pieces, and the texts that are made of them.
* `isBlankText_iff`: **the blank texts are those that are made of these pieces.**
* `isBlankText_append_line`: a blank text in lines of its own is skipped.
* `blankRound`, `blankRounds_eq`: the test in rounds, each of which takes one comment away, comes
  to an end.
* `blank_texts_decided`: **all of this together.**
-/

namespace IdlDocs.Idl

open Text

variable {s t r p : List Char} {pieces : List (List Char)}

/-! ## Pieces -/

/-- What a blank text is made of: a blank character, a line comment with its line break, or a
block comment, which is closed by its first star in front of a slash. -/
inductive BlankPiece : List Char → Prop
  | blank {c : Char} (h : isBlank c = true) : BlankPiece [c]
  | line {t : List Char} (h : '\n' ∉ t) : BlankPiece ('/' :: '/' :: (t ++ ['\n']))
  | block {t : List Char} (h : ¬ ['*', '/'] <:+: t) :
      BlankPiece ('/' :: '*' :: (t ++ ['*', '/']))

/-- What a blank text may end with: nothing more, or a line comment without a line break. -/
inductive BlankEnd : List Char → Prop
  | nil : BlankEnd []
  | line {t : List Char} (h : '\n' ∉ t) : BlankEnd ('/' :: '/' :: t)

/-- A text that is made of pieces in a row, and of one of the two ends. -/
def MadeOfBlanks (s : List Char) : Prop :=
  ∃ (pieces : List (List Char)) (last : List Char),
    s = pieces.flatten ++ last ∧ (∀ p ∈ pieces, BlankPiece p) ∧ BlankEnd last

theorem MadeOfBlanks.append_of_piece (hp : BlankPiece p) (hs : MadeOfBlanks s) :
    MadeOfBlanks (p ++ s) := by
  obtain ⟨pieces, last, rfl, hpieces, hlast⟩ := hs
  refine ⟨p :: pieces, last, ?_, ?_, hlast⟩
  · rw [List.flatten_cons, List.append_assoc]
  · rintro q hq
    rcases List.mem_cons.1 hq with rfl | hq
    · exact hp
    · exact hpieces q hq

theorem BlankPiece.isBlankText_append (hp : BlankPiece p) (s : List Char) :
    isBlankText (p ++ s) = isBlankText s := by
  cases hp with
  | @blank c h =>
    have hc : c ≠ '/' := by
      rintro rfl
      exact absurd h (by decide)
    rw [List.singleton_append, isBlankText_cons s hc, h, Bool.true_and]
  | @line t h =>
    have hline : afterLine? (t ++ ['\n'] ++ s) = some s := by
      rw [List.append_assoc]
      exact afterLine?_of_notMem h s
    rw [List.cons_append, List.cons_append, isBlankText_line, afterLine, hline]
    rfl
  | @block t h =>
    have hblock : afterBlock? (t ++ ['*', '/'] ++ s) = some s := by
      rw [List.append_assoc]
      exact afterBlock?_of_not_infix h s
    rw [List.cons_append, List.cons_append, isBlankText_block, hblock]
    rfl

theorem isBlankText_flatten_append (hpieces : ∀ p ∈ pieces, BlankPiece p) (s : List Char) :
    isBlankText (pieces.flatten ++ s) = isBlankText s := by
  induction pieces with
  | nil => rfl
  | cons p pieces ih =>
    rw [List.flatten_cons, List.append_assoc,
      (hpieces p List.mem_cons_self).isBlankText_append, ih]
    exact fun q hq => hpieces q (List.mem_cons_of_mem p hq)

theorem BlankEnd.isBlankText (h : BlankEnd s) : isBlankText s = true := by
  cases h with
  | nil => exact isBlankText_nil
  | line h =>
    rw [isBlankText_line, afterLine, afterLine?_eq_none_iff.2 h]
    exact isBlankText_nil

/-- A text that starts with neither a blank character nor a comment is not blank. -/
theorem isBlankText_of_stop {c : Char} (hc : isBlank c = false)
    (hline : ∀ r, c :: s ≠ '/' :: '/' :: r) (hblock : ∀ r, c :: s ≠ '/' :: '*' :: r) :
    isBlankText (c :: s) = false := by
  rw [isBlankText.eq_def]
  split
  · next he => exact absurd he (hline _)
  · next he => exact absurd he (hblock _)
  · next he => cases he; rw [hc]; rfl
  · next he => cases he

theorem madeOfBlanks_of_isBlankText (h : isBlankText s = true) : MadeOfBlanks s := by
  induction s using isBlankText.induct with
  | case1 s ih =>
    rw [isBlankText_line] at h
    cases hs : afterLine? s with
    | none => exact ⟨[], _, rfl, nofun, .line (afterLine?_eq_none_iff.1 hs)⟩
    | some r =>
      obtain ⟨t, ht, rfl⟩ := exists_line_of_afterLine? hs
      have hrest : afterLine (t ++ '\n' :: r) = r := by rw [afterLine, hs]; rfl
      rw [hrest] at ih h
      have hmade := (ih h).append_of_piece (.line ht)
      simpa using hmade
  | case2 s r hr ih =>
    rw [isBlankText_block, hr] at h
    obtain ⟨t, ht, rfl⟩ := exists_block_of_afterBlock? hr
    have hmade := (ih h).append_of_piece (.block ht)
    simpa using hmade
  | case3 s hnone =>
    rw [isBlankText_block, hnone] at h
    cases h
  | case4 c s hline hblock ih =>
    cases hc : isBlank c with
    | true =>
      have hpiece := BlankPiece.blank hc
      rw [← List.singleton_append, hpiece.isBlankText_append] at h
      exact (ih h).append_of_piece hpiece
    | false =>
      rw [isBlankText_of_stop hc] at h
      · cases h
      · rintro r he
        cases he
        exact hline r rfl rfl
      · rintro r he
        cases he
        exact hblock r rfl rfl
  | case5 => exact ⟨[], [], rfl, nofun, .nil⟩

theorem MadeOfBlanks.isBlankText (h : MadeOfBlanks s) : isBlankText s = true := by
  obtain ⟨pieces, last, rfl, hpieces, hlast⟩ := h
  rw [isBlankText_flatten_append hpieces]
  exact hlast.isBlankText

/-- **The blank texts are those that are made of the pieces.** -/
theorem isBlankText_iff : isBlankText s = true ↔ MadeOfBlanks s :=
  ⟨madeOfBlanks_of_isBlankText, MadeOfBlanks.isBlankText⟩

/-- **A blank text in lines of its own is skipped.**  The line break behind it ends the line
comment at its end. -/
theorem isBlankText_append_line (h : isBlankText s = true) (t : List Char) :
    isBlankText (s ++ '\n' :: t) = isBlankText t := by
  obtain ⟨pieces, last, rfl, hpieces, hlast⟩ := isBlankText_iff.1 h
  rw [List.append_assoc, isBlankText_flatten_append hpieces]
  cases hlast with
  | nil => exact (BlankPiece.blank (c := '\n') rfl).isBlankText_append t
  | @line u hu =>
    have hline := (BlankPiece.line hu).isBlankText_append t
    simpa using hline

/-! ## The test in rounds -/

/-- One round of the test: the blank characters in front are dropped, then a comment.  Without a
comment, or with one that is not closed, the answer is there. -/
def blankRound (s : List Char) : Bool ⊕ List Char :=
  match trimStart s with
  | '/' :: '/' :: r => .inr (afterLine r)
  | '/' :: '*' :: r => (afterBlock? r).elim (.inl false) .inr
  | r => .inl r.isEmpty

/-- The answer after at most `n` rounds. -/
def blankRounds : Nat → List Char → Option Bool
  | 0, _ => none
  | n + 1, s => (blankRound s).elim some (blankRounds n)

theorem isBlankText_trimStart (s : List Char) : isBlankText (trimStart s) = isBlankText s := by
  induction s with
  | nil => rfl
  | cons c s ih =>
    unfold trimStart at ih ⊢
    by_cases hc : isBlank c = true
    · rw [List.dropWhile_cons_of_pos hc, ih]
      exact ((BlankPiece.blank hc).isBlankText_append s).symm
    · rw [List.dropWhile_cons_of_neg hc]

/-- **A round keeps the answer, and takes two characters away where it leaves a text.** -/
theorem blankRound_keeps (s : List Char) :
    isBlankText s = (blankRound s).elim id isBlankText ∧
      ∀ r, blankRound s = .inr r → r.length + 2 ≤ s.length := by
  have hle : (trimStart s).length ≤ s.length := (trimStart_suffix s).length_le
  rw [← isBlankText_trimStart]
  fun_cases blankRound s with
  | case1 r h =>
    rw [h, isBlankText_line]
    refine ⟨rfl, ?_⟩
    rintro u ⟨⟩
    have hrest := afterLine_length r
    rw [h, List.length_cons, List.length_cons] at hle
    omega
  | case2 r h =>
    rw [h, isBlankText_block]
    cases hr : afterBlock? r with
    | none => exact ⟨rfl, nofun⟩
    | some t =>
      refine ⟨rfl, ?_⟩
      rintro u ⟨⟩
      have hrest := afterBlock?_length hr
      rw [h, List.length_cons, List.length_cons] at hle
      omega
  | case3 hline hblock =>
    refine ⟨?_, nofun⟩
    cases htrim : trimStart s with
    | nil => exact isBlankText_nil
    | cons c r =>
      rw [htrim] at hline hblock
      exact isBlankText_of_stop (isBlank_of_trimStart htrim) hline hblock

/-- **The test comes to an end**: half as many rounds as there are characters, and one more, give
the answer. -/
theorem blankRounds_eq {n : Nat} (h : s.length < 2 * n) :
    blankRounds n s = some (isBlankText s) := by
  induction n generalizing s with
  | zero => exact absurd h (Nat.not_lt_zero _)
  | succ n ih =>
    obtain ⟨hkeeps, hshort⟩ := blankRound_keeps s
    rw [blankRounds, hkeeps]
    cases hround : blankRound s with
    | inl b => rfl
    | inr r =>
      have hr := hshort r hround
      exact ih (by omega)

/-! ## All together -/

/-- **The test for blank texts comes to an end, and finds the texts that are made of blanks and
comments.**  Where such a text is followed by a line break, it does not count. -/
theorem blank_texts_decided (s : List Char) :
    (∀ n, s.length / 2 < n → blankRounds n s = some (isBlankText s)) ∧
      (isBlankText s = true ↔ MadeOfBlanks s) ∧
      ∀ t, isBlankText s = true → isBlankText (s ++ '\n' :: t) = isBlankText t :=
  ⟨fun n hn => blankRounds_eq (by omega), isBlankText_iff, fun t h => isBlankText_append_line h t⟩

/-- What opens a comment counts for nothing inside of one, and a block that is not closed is no
comment. -/
theorem blank_texts_decided_nested :
    " //*\n/* // */".toList.length / 2 < 7 ∧ isBlankText " //*\n/* // */".toList = true ∧
      MadeOfBlanks " //*\n/* // */".toList ∧
      isBlankText " //*\n/* // */\n/* /".toList = false := by
  obtain ⟨hrounds, hmade, hline⟩ := blank_texts_decided " //*\n/* // */".toList
  obtain ⟨hrounds', -⟩ := blank_texts_decided "/* /".toList
  have hlength : " //*\n/* // */".toList.length / 2 < 7 := by decide
  have hblank : isBlankText " //*\n/* // */".toList = true :=
    Option.some.inj ((hrounds 7 hlength).symm.trans (by decide))
  have hopen : isBlankText "/* /".toList = false :=
    Option.some.inj ((hrounds' 3 (by decide)).symm.trans (by decide))
  exact ⟨hlength, hblank, hmade.1 hblank, (hline "/* /".toList hblank).trans hopen⟩

end IdlDocs.Idl
