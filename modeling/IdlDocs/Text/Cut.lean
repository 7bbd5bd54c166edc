/-!
# Cutting texts at a mark

Texts are lists of characters here.  A **mark** is a text that is searched for.

* `dropLead?`: the text after a lead, if it starts with it.
* `cutAt`: the parts before and after the first occurrence of a mark.
* `parts`: the parts between the occurrences of one character, never none.
-/

namespace IdlDocs.Text

def dropLead? : List Char → List Char → Option (List Char)
  | [], s => some s
  | _ :: _, [] => none
  | c :: lead, d :: s => if c = d then dropLead? lead s else none

theorem dropLead?_append (lead s : List Char) : dropLead? lead (lead ++ s) = some s := by
  induction lead with
  | nil => rfl
  | cons c lead ih => simp [dropLead?, ih]

/-- A text that starts with a lead is the lead and what `dropLead?` leaves. -/
theorem eq_append_of_dropLead? {lead s r : List Char} (h : dropLead? lead s = some r) :
    s = lead ++ r := by
  induction lead generalizing s with
  | nil => simpa [dropLead?] using h
  | cons c lead ih =>
    cases s with
    | nil => simp [dropLead?] at h
    | cons d s =>
      simp only [dropLead?] at h
      split at h
      · next hcd => simp [hcd, ih h]
      · cases h

def cutAt (mark : List Char) : List Char → Option (List Char × List Char)
  | [] => if mark.isEmpty then some ([], []) else none
  | c :: s =>
    match dropLead? mark (c :: s) with
    | some after => some ([], after)
    | none => (cutAt mark s).map fun (before, after) => (c :: before, after)

theorem eq_of_cutAt {mark s a b : List Char} (h : cutAt mark s = some (a, b)) :
    s = a ++ mark ++ b := by
  induction s generalizing a with
  | nil =>
    cases mark with
    | nil => simp [cutAt] at h; simp [h]
    | cons c mark => simp [cutAt] at h
  | cons c s ih =>
    simp only [cutAt] at h
    split at h
    · next after hd =>
      simp only [Option.some.injEq, Prod.mk.injEq] at h
      obtain ⟨rfl, rfl⟩ := h
      simpa using eq_append_of_dropLead? hd
    · obtain ⟨⟨a', b'⟩, hs, he⟩ := Option.map_eq_some_iff.1 h
      simp only [Prod.mk.injEq] at he
      obtain ⟨rfl, rfl⟩ := he
      simp [ih hs]

/-- The parts of a text between the occurrences of `sep`. -/
def parts (sep : Char) : List Char → List (List Char)
  | [] => [[]]
  | c :: s =>
    if c = sep then [] :: parts sep s
    else
      match parts sep s with
      | [] => [[c]]
      | p :: ps => (c :: p) :: ps

theorem parts_ne_nil (sep : Char) (s : List Char) : parts sep s ≠ [] := by
  cases s with
  | nil => simp [parts]
  | cons c s => simp only [parts]; split <;> (try split) <;> simp

theorem parts_of_notMem {sep : Char} {s : List Char} (h : sep ∉ s) : parts sep s = [s] := by
  induction s with
  | nil => rfl
  | cons c s ih =>
    rw [List.mem_cons, not_or] at h
    rw [parts, if_neg (Ne.symm h.1), ih h.2]

theorem parts_append (sep : Char) (a b : List Char) :
    parts sep (a ++ sep :: b) = parts sep a ++ parts sep b := by
  induction a with
  | nil =>
    rw [List.nil_append, parts.eq_2, if_pos rfl]
    rfl
  | cons c a ih =>
    rw [List.cons_append, parts.eq_2, parts.eq_2, ih]
    split
    · rfl
    · cases hp : parts sep a with
      | nil => exact absurd hp (parts_ne_nil sep a)
      | cons p ps => rfl

/-- Joining the parts with the separator gives the text back. -/
theorem intercalate_parts (sep : Char) (s : List Char) :
    [sep].intercalate (parts sep s) = s := by
  induction s with
  | nil => simp [parts, List.intercalate]
  | cons c s ih =>
    cases hp : parts sep s with
    | nil => exact absurd hp (parts_ne_nil sep s)
    | cons p ps =>
      by_cases hc : c = sep
      · subst hc
        rw [parts, if_pos rfl, hp]
        rw [hp] at ih
        simp only [List.intercalate, List.intersperse_cons_cons, List.flatten_cons] at ih ⊢
        simp [ih]
      · rw [parts, if_neg hc, hp]
        rw [hp] at ih
        cases ps with
        | nil => simpa [List.intercalate] using ih
        | cons q ps =>
          simp only [List.intercalate, List.intersperse_cons_cons, List.flatten_cons,
            List.cons_append, List.cons.injEq, true_and] at ih ⊢
          exact ih

end IdlDocs.Text
