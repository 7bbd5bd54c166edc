import IdlDocs.Idl.Token
import IdlDocs.Text.Lowercase

/-!
# Words in small letters

The characters of words are letters and digits of the first half of Unicode's first block, with
two marks.  Each of them has a single small letter, which is such a character again.

* `IsWordText`: texts of such characters.
* `IsWordText.toList_lowercase`: **such a text in small letters, character by character.**
* `IsWordText.lowercase`: it is such a text again.
-/

namespace IdlDocs.Text

open Idl (isAlnum isWordChar)

def IsWordText (s : String) : Prop := ∀ c ∈ s.toList, isWordChar c = true

theorem toNat_lt_of_isWordChar {c : Char} (h : isWordChar c = true) : c.toNat < 128 := by
  unfold isWordChar isAlnum Char.isAlphanum Char.isAlpha Char.isUpper Char.isLower Char.isDigit at h
  simp only [ge_iff_le, UInt32.le_iff_toNat_le, Bool.or_eq_true, Bool.and_eq_true,
    decide_eq_true_eq, beq_iff_eq] at h
  obtain (((⟨-, h⟩ | ⟨-, h⟩) | ⟨-, h⟩) | rfl) | rfl := h
  · exact Nat.lt_of_le_of_lt h (by decide)
  · exact Nat.lt_of_le_of_lt h (by decide)
  · exact Nat.lt_of_le_of_lt h (by decide)
  · decide
  · decide

theorem of_isWordChar {P : Char → Prop} (h : ∀ n < 128, isWordChar (Char.ofNat n) = true →
    P (Char.ofNat n)) {c : Char} (hc : isWordChar c = true) : P c := by
  have hn := h c.toNat (toNat_lt_of_isWordChar hc)
  rw [Char.ofNat_toNat] at hn
  exact hn hc

theorem isWordChar_toLower {c : Char} (h : isWordChar c = true) :
    isWordChar c.toLower = true :=
  of_isWordChar (P := fun c => isWordChar c.toLower = true) (by decide +kernel) h

theorem lowerAfter_of_isWordChar (before : List Char) {s : List Char}
    (h : ∀ c ∈ s, isWordChar c = true) : lowerAfter before s = s.map Char.toLower := by
  induction s generalizing before with
  | nil => rfl
  | cons c s ih =>
    have hc := h c List.mem_cons_self
    have hsigma : c ≠ 'Σ' := fun he => absurd hc (by rw [he]; decide)
    rw [lowerAfter, ih _ fun d hd => h d (List.mem_cons_of_mem c hd), if_neg hsigma]
    unfold lowerChar
    rw [if_pos (toNat_lt_of_isWordChar hc)]
    rfl

namespace IsWordText

variable {s : String}

theorem toList_lowercase (h : IsWordText s) :
    (lowercase s).toList = s.toList.map Char.toLower := by
  unfold Text.lowercase
  rw [String.toList_ofList, lowerAfter_of_isWordChar [] h]

theorem lowercase (h : IsWordText s) : IsWordText (lowercase s) := by
  intro c hc
  rw [h.toList_lowercase, List.mem_map] at hc
  obtain ⟨d, hd, rfl⟩ := hc
  exact isWordChar_toLower (h d hd)

theorem append {t : String} (h : IsWordText s) (h' : IsWordText t) : IsWordText (s ++ t) := by
  intro c hc
  rw [String.toList_append, List.mem_append] at hc
  exact hc.elim (h c) (h' c)

theorem lowercase_ne_empty (h : IsWordText s) (hne : s ≠ "") : Text.lowercase s ≠ "" := by
  intro he
  have hnil := congrArg String.toList he
  rw [h.toList_lowercase] at hnil
  exact hne (String.toList_inj.1 (List.map_eq_nil_iff.1 hnil))

end IsWordText

end IdlDocs.Text
