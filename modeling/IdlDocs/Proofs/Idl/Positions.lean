import IdlDocs.Proofs.Idl.Blanks
import Mathlib.Data.List.Induction
import Mathlib.Data.Prod.Lex

/-!
# Positions and places

A **place** of a text is a boundary between two of its characters, counted in bytes.  Its position
counts lines and columns instead, and the two tell the same: a position leads back to its place,
and a later place has a later position.

* `Position.key_lt_next`, `Position.key_lt_after`: one character more is later, and so are more.
* `Position.after_eq`: the line and the column of a place.
* `afterLines?`, `afterChars?`, `Position.rest?`: what stands at a position.
* `afterLines?_append`: the line of a place, up to the place.
* `Position.rest?_after`: **a position leads back to its place.**
* `positionAt`, `offsetAt?`: the position of a place, and the bytes in front of a position.
* `positions_tell_places`: **positions and places tell the same, and in the same order.**
-/

namespace IdlDocs.Text

/-! ## The order of positions -/

namespace Position

/-- The line, then the column. -/
def key (p : Position) : ℕ ×ₗ ℕ := toLex (p.line, p.column)

theorem key_lt_next (p : Position) (c : Char) : p.key < (p.next c).key := by
  unfold key next
  rw [Prod.Lex.toLex_lt_toLex]
  split
  · exact .inl (Nat.lt_succ_self p.line)
  · exact .inr ⟨rfl, Nat.lt_succ_self p.column⟩

theorem key_le_foldl (p : Position) (s : List Char) : p.key ≤ (s.foldl next p).key := by
  induction s generalizing p with
  | nil => exact le_refl p.key
  | cons c s ih => exact (key_lt_next p c).le.trans (ih (p.next c))

/-- **A longer text has a later end.** -/
theorem key_lt_after (s t : List Char) (c : Char) : (after s).key < (after (s ++ c :: t)).key := by
  unfold after
  rw [List.foldl_append]
  exact (key_lt_next _ c).trans_le (key_le_foldl _ t)

/-- **The line of a place** is one more than there are line breaks before it, and its column one
more than there are characters behind the last of them. -/
theorem after_eq (s : List Char) :
    after s = ⟨1 + s.count '\n', 1 + (s.reverse.takeWhile (· ≠ '\n')).length⟩ := by
  induction s using List.reverseRecOn with
  | nil => rfl
  | append_singleton s c ih =>
    have hnext : after (s ++ [c]) = (after s).next c := by
      unfold after
      rw [List.foldl_append]
      rfl
    rw [hnext, ih, next, List.count_append, List.reverse_concat]
    by_cases hc : c = '\n'
    · subst hc
      rfl
    · rw [if_neg hc, List.count_singleton, List.takeWhile_cons_of_pos (by simpa using hc)]
      simp [hc, Nat.add_assoc]

end Position

/-! ## What stands at a position -/

/-- The text after its first `n` line breaks, if it has so many. -/
def afterLines? : Nat → List Char → Option (List Char)
  | 0, s => some s
  | n + 1, s => (afterLines? n s).bind Idl.afterLine?

def afterChars? (n : Nat) (s : List Char) : Option (List Char) :=
  if n ≤ s.length then some (s.drop n) else none

theorem afterChars?_append (s r : List Char) : afterChars? s.length (s ++ r) = some r := by
  unfold afterChars?
  rw [if_pos (by simp), List.drop_left]

def lastLine (s : List Char) : List Char := (s.reverse.takeWhile (· ≠ '\n')).reverse

theorem notMem_lastLine (s : List Char) : '\n' ∉ lastLine s := by
  intro h
  have hc := List.all_eq_true.1 List.all_takeWhile '\n' (List.mem_reverse.1 h)
  exact absurd hc (by decide)

/-- **The last line of a text is what stands behind all of its line breaks**, together with what
follows the text.  By induction from the end of the text: a line break starts a new line, and any
other character goes on with the last one. -/
theorem afterLines?_append (s r : List Char) :
    afterLines? (s.count '\n') (s ++ r) = some (lastLine s ++ r) := by
  induction s using List.reverseRecOn generalizing r with
  | nil => rfl
  | append_singleton s c ih =>
    rw [List.append_assoc, List.count_append, List.count_singleton]
    unfold lastLine at ih ⊢
    rw [List.reverse_concat]
    by_cases hc : c = '\n'
    · subst hc
      rw [beq_self_eq_true, if_pos rfl, afterLines?, ih]
      exact Idl.afterLine?_of_notMem (notMem_lastLine s) r
    · rw [if_neg (by simpa using hc), Nat.add_zero, ih,
        List.takeWhile_cons_of_pos (by simpa using hc), List.reverse_cons, List.append_assoc]

namespace Position

/-- The text at a position: after as many line breaks as there are lines before it, and then after
as many characters as there are columns before it. -/
def rest? (p : Position) (s : List Char) : Option (List Char) :=
  (afterLines? (p.line - 1) s).bind (afterChars? (p.column - 1))

/-- **A position leads back to its place.** -/
theorem rest?_after (s r : List Char) : (after s).rest? (s ++ r) = some r := by
  have hcolumn : (s.reverse.takeWhile (· ≠ '\n')).length = (lastLine s).length :=
    List.length_reverse.symm
  rw [after_eq, rest?, Nat.add_sub_cancel_left, Nat.add_sub_cancel_left, hcolumn,
    afterLines?_append]
  exact afterChars?_append (lastLine s) r

end Position

end IdlDocs.Text

/-! ## Places of source texts -/

namespace IdlDocs.Idl

open Text

variable {source : String}

/-- The position that an error at a place of a text tells. -/
def positionAt (p : source.Pos) : Position :=
  (SyntaxError.ofRest source.toList (source.sliceFrom p).copy.toList).position

/-- The bytes in front of a position, if the text has this position. -/
def offsetAt? (source : String) (p : Position) : Option Nat :=
  (p.rest? source.toList).map fun r => source.utf8ByteSize - (String.ofList r).utf8ByteSize

/-- An error is at the position behind the text that has been read. -/
theorem position_ofRest (s r : List Char) :
    (SyntaxError.ofRest (s ++ r) r).position = Position.after s := by
  unfold SyntaxError.ofRest
  rw [List.length_append, Nat.add_sub_cancel, List.take_left]

/-- A text is what stands in front of a place and what stands behind it. -/
theorem toList_eq_append (p : source.Pos) :
    source.toList = (source.sliceTo p).copy.toList ++ (source.sliceFrom p).copy.toList := by
  rw [← String.toList_append, ← p.splits.eq_append]

theorem positionAt_eq (p : source.Pos) :
    positionAt p = Position.after (source.sliceTo p).copy.toList := by
  rw [positionAt, toList_eq_append p, position_ofRest]

theorem offset_eq (p : source.Pos) : p.offset.byteIdx = (source.sliceTo p).copy.utf8ByteSize := by
  rw [p.splits.offset_eq_rawEndPos, String.byteIdx_rawEndPos]

/-- Skipping lines and characters leads to the text at the place. -/
theorem rest?_positionAt (p : source.Pos) :
    (positionAt p).rest? source.toList = some (source.sliceFrom p).copy.toList := by
  rw [positionAt_eq, toList_eq_append p]
  exact Position.rest?_after _ _

theorem offsetAt?_positionAt (p : source.Pos) :
    offsetAt? source (positionAt p) = some p.offset.byteIdx := by
  have hsize := congrArg String.utf8ByteSize p.splits.eq_append
  rw [String.utf8ByteSize_append] at hsize
  rw [offsetAt?, rest?_positionAt, offset_eq, Option.map_some, String.ofList_toList, hsize,
    Nat.add_sub_cancel]

theorem utf8ByteSize_le_of_append {a b : String} {t : List Char} (h : b.toList = a.toList ++ t) :
    a.utf8ByteSize ≤ b.utf8ByteSize := by
  have hb : b = a ++ String.ofList t := by
    rw [← String.toList_inj, h, String.toList_append, String.toList_ofList]
  rw [hb, String.utf8ByteSize_append]
  exact Nat.le_add_right _ _

/-- The text in front of a later place goes on behind that in front of the other one. -/
theorem exists_append_of_lt {p q : source.Pos} (h : p < q) :
    ∃ c t, (source.sliceTo q).copy.toList = (source.sliceTo p).copy.toList ++ c :: t := by
  rw [String.Pos.lt_iff, String.Pos.Raw.lt_iff, offset_eq, offset_eq] at h
  have hsame := (toList_eq_append p).symm.trans (toList_eq_append q)
  rcases List.append_eq_append_iff.1 hsame with ⟨- | ⟨c, t⟩, hq, -⟩ | ⟨t, hp, -⟩
  · rw [List.append_nil, String.toList_inj] at hq
    rw [hq] at h
    exact absurd h (Nat.lt_irrefl _)
  · exact ⟨c, t, hq⟩
  · exact absurd h (Nat.not_lt.2 (utf8ByteSize_le_of_append hp))

theorem key_positionAt_lt {p q : source.Pos} (h : p < q) :
    (positionAt p).key < (positionAt q).key := by
  obtain ⟨c, t, hq⟩ := exists_append_of_lt h
  rw [positionAt_eq, positionAt_eq, hq]
  exact Position.key_lt_after _ t c

theorem key_positionAt_lt_iff {p q : source.Pos} :
    (positionAt p).key < (positionAt q).key ↔ p < q := by
  refine ⟨fun h => ?_, key_positionAt_lt⟩
  rcases Std.lt_trichotomy p q with hlt | rfl | hgt
  · exact hlt
  · exact absurd h (lt_irrefl _)
  · exact absurd h (lt_asymm (key_positionAt_lt hgt))

/-- **Positions and places tell the same.**  A later place has a later position, lines and columns
are counted from one, and skipping the lines and the columns before a position leads to the text
at its place, behind as many bytes as there are in front of the place. -/
theorem positions_tell_places (p q : source.Pos) :
    (p < q ↔ toLex ((positionAt p).line, (positionAt p).column) <
        toLex ((positionAt q).line, (positionAt q).column)) ∧
      1 ≤ (positionAt p).line ∧ 1 ≤ (positionAt p).column ∧
      (positionAt p).rest? source.toList = some (source.sliceFrom p).copy.toList ∧
      offsetAt? source (positionAt p) = some p.offset.byteIdx := by
  refine ⟨key_positionAt_lt_iff.symm, ?_, ?_, rest?_positionAt p, offsetAt?_positionAt p⟩
  · rw [positionAt_eq, Position.after_eq]
    exact Nat.le_add_right 1 _
  · rw [positionAt_eq, Position.after_eq]
    exact Nat.le_add_right 1 _

/-- Columns count characters, and offsets count bytes. -/
example : offsetAt? "é\nöb" ⟨2, 2⟩ = some 5 := by decide

end IdlDocs.Idl
