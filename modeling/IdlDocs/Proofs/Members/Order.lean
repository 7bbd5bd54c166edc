import IdlDocs.Members.Order
import Mathlib.Data.List.Nodup

/-!
# The order of names

Names are compared by their small letters first and by their code points, downwards, where these
are the same.  Two names are therefore never equal in this order unless they are the same, and
names that are all different are strictly increasing when they are sorted.

* `compareNames` is a linear order, by the instances of `TransCmp` and `LawfulEqCmp`, as
  `compareStrings` is.
* `namesInOrder_trans`, `namesInOrder_total`: what sorting needs.
* `pairwise_mergeSort_key`: what is sorted by a key is in order.
* `pairwise_lt_mergeSort`: **different names that are sorted are strictly increasing.**
-/

namespace IdlDocs

open Std

theorem transCmp_key {α β : Type} (key : α → β) (cmp : β → β → Ordering) [TransCmp cmp] :
    TransCmp fun a b => cmp (key a) (key b) where
  eq_swap := OrientedCmp.eq_swap
  isLE_trans := TransCmp.isLE_trans

namespace Text

theorem compareChars_eq (s t : List Char) :
    compareChars s t = List.compareLex (compareOn Char.toNat) s t := by
  induction s generalizing t with
  | nil => cases t <;> rfl
  | cons a s ih =>
    cases t with
    | nil => rfl
    | cons b t =>
      rw [List.compareLex_cons_cons, ← ih t, compareChars]
      by_cases hlt : a.toNat < b.toNat
      · rw [if_pos hlt, compareOn, Nat.compare_eq_lt.2 hlt]
        rfl
      · rw [if_neg hlt]
        by_cases hgt : b.toNat < a.toNat
        · rw [if_pos hgt, compareOn, Nat.compare_eq_gt.2 hgt]
          rfl
        · have heq : a.toNat = b.toNat := by omega
          rw [if_neg hgt, compareOn, Nat.compare_eq_eq.2 heq]
          rfl

instance lawfulEqCmp_toNat : LawfulEqCmp (compareOn Char.toNat) where
  compare_self := Nat.compare_eq_eq.2 rfl
  eq_of_compare h := Char.toNat_inj.1 (Nat.compare_eq_eq.1 h)

theorem compareStrings_eq : compareStrings =
    fun a b => List.compareLex (compareOn Char.toNat) a.toList b.toList := by
  funext a b
  exact compareChars_eq a.toList b.toList

instance : TransCmp compareStrings := by
  rw [compareStrings_eq]
  exact transCmp_key String.toList _

instance : LawfulEqCmp compareStrings where
  compare_self := ReflCmp.compare_self
  eq_of_compare {a b} h := by
    rw [compareStrings_eq] at h
    exact String.toList_inj.1 (LawfulEqCmp.eq_of_compare h)

end Text

namespace Idl

open Text

instance : TransCmp compareNames :=
  have := transCmp_key lowercase compareStrings
  inferInstanceAs (TransCmp (compareLex (fun a b => compareStrings (lowercase a) (lowercase b))
    fun a b => compareStrings b a))

instance : LawfulEqCmp compareNames where
  compare_self := ReflCmp.compare_self
  eq_of_compare {a b} h := by
    have heq := (Ordering.then_eq_eq.1 h).2
    exact (LawfulEqCmp.eq_of_compare heq).symm

/-! ## Sorting -/

theorem namesInOrder_iff {a b : String} :
    namesInOrder a b = true ↔ compareNames a b = .lt ∨ a = b := by
  unfold namesInOrder
  cases h : compareNames a b with
  | lt => simp
  | eq => simp [LawfulEqCmp.eq_of_compare h]
  | gt =>
    have hne : a ≠ b := by
      rintro rfl
      have hself : compareNames a a = .eq := ReflCmp.compare_self
      rw [hself] at h
      cases h
    simp [hne]

theorem namesInOrder_trans (a b c : String) (hab : namesInOrder a b = true)
    (hbc : namesInOrder b c = true) : namesInOrder a c = true := by
  rw [namesInOrder_iff] at hab hbc ⊢
  rcases hab with hab | rfl
  · rcases hbc with hbc | rfl
    · exact .inl (TransCmp.lt_trans hab hbc)
    · exact .inl hab
  · exact hbc

theorem namesInOrder_total (a b : String) : (namesInOrder a b || namesInOrder b a) = true := by
  rw [Bool.or_eq_true, namesInOrder_iff, namesInOrder_iff]
  cases h : compareNames a b with
  | lt => exact .inl (.inl rfl)
  | eq => exact .inl (.inr (LawfulEqCmp.eq_of_compare h))
  | gt => exact .inr (.inl (OrientedCmp.gt_iff_lt.1 h))

theorem pairwise_mergeSort_key {α : Type} (key : α → String) (l : List α) :
    (l.mergeSort fun a b => namesInOrder (key a) (key b)).Pairwise
      fun a b => namesInOrder (key a) (key b) = true :=
  List.pairwise_mergeSort (fun a b c => namesInOrder_trans (key a) (key b) (key c))
    (fun a b => namesInOrder_total (key a) (key b)) l

/-- **Different names that are sorted are strictly increasing.** -/
theorem pairwise_lt_mergeSort {α : Type} (key : α → String) {l : List α}
    (h : (l.map key).Nodup) :
    ((l.mergeSort fun a b => namesInOrder (key a) (key b)).map key).Pairwise
      fun a b => compareNames a b = .lt := by
  have hnodup : ((l.mergeSort fun a b => namesInOrder (key a) (key b)).map key).Nodup :=
    ((List.mergeSort_perm l _).map key).nodup_iff.2 h
  have hdistinct := List.pairwise_map.1 hnodup
  rw [List.pairwise_map]
  refine (List.pairwise_and_iff.2 ⟨pairwise_mergeSort_key key l, hdistinct⟩).imp ?_
  rintro a b ⟨hab, hne⟩
  rcases namesInOrder_iff.1 hab with hlt | heq
  · exact hlt
  · exact absurd heq hne

end Idl

end IdlDocs
