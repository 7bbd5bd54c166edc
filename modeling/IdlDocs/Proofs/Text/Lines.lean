import IdlDocs.Text.Cut
import Mathlib.Data.List.Basic

/-!
# Lines and sections

The lines of a text are its parts between line breaks.  A line that starts with `## ` is a
**heading**; the section of a heading goes on to the next one, whichever it is.

* `parts_append_last`, `parts_append_of_notMem`: the parts of texts that are put together.
* `IsUnbroken`: a text in one line.
* `IsLines`: a text that is made of complete lines.
* `sectionLines`: **the lines in the sections of a heading.**
* `sectionLines_of_notMem`, `sectionLines_inside`: what stands outside of its sections, and what
  stands inside.
* `sectionLines_between`: the section of a heading that stands once.
-/

namespace IdlDocs.Text

variable {sep : Char} {s x : List Char} {ls : List (List Char)}

/-! ## Parts -/

theorem parts_cons_of_ne {c : Char} (hc : c ≠ sep) {p : List Char} {ps : List (List Char)}
    (h : parts sep s = p :: ps) : parts sep (c :: s) = (c :: p) :: ps := by
  rw [parts, if_neg hc, h]

theorem notMem_of_mem_parts {p : List Char} (h : p ∈ parts sep s) : sep ∉ p := by
  induction s generalizing p with
  | nil =>
    rw [parts, List.mem_singleton] at h
    rw [h]
    exact List.not_mem_nil
  | cons c s ih =>
    obtain ⟨q, qs, hq⟩ := List.exists_cons_of_ne_nil (parts_ne_nil sep s)
    by_cases hc : c = sep
    · rw [parts, if_pos hc] at h
      rcases List.mem_cons.1 h with rfl | h
      · exact List.not_mem_nil
      · exact ih h
    · rw [parts_cons_of_ne hc hq] at h
      rw [hq] at ih
      rcases List.mem_cons.1 h with rfl | h
      · rw [List.mem_cons, not_or]
        exact ⟨Ne.symm hc, ih List.mem_cons_self⟩
      · exact ih (List.mem_cons_of_mem q h)

/-- A text without the separator joins the first part of the text behind it. -/
theorem parts_append_of_notMem (hx : sep ∉ x) {p : List Char} {ps : List (List Char)}
    (h : parts sep s = p :: ps) : parts sep (x ++ s) = (x ++ p) :: ps := by
  induction x with
  | nil => exact h
  | cons c x ih =>
    rw [List.mem_cons, not_or] at hx
    exact parts_cons_of_ne (Ne.symm hx.1) (ih hx.2)

theorem parts_append_last {last : List Char} (h : parts sep s = ls ++ [last]) (r : List Char) :
    parts sep (s ++ r) = ls ++ parts sep (last ++ r) := by
  induction s generalizing ls last with
  | nil =>
    obtain ⟨rfl, rfl⟩ : ls = [] ∧ last = [] := by
      rw [parts, List.singleton_eq_append_iff] at h
      simpa using h
    rfl
  | cons c s ih =>
    obtain ⟨p, ps, hp⟩ := List.exists_cons_of_ne_nil (parts_ne_nil sep s)
    obtain ⟨q, qs, hq⟩ := List.exists_cons_of_ne_nil (parts_ne_nil sep (s ++ r))
    by_cases hc : c = sep
    · rw [parts, if_pos hc] at h
      cases ls with
      | nil =>
        rw [List.nil_append, List.cons.injEq] at h
        exact absurd h.2 (parts_ne_nil sep s)
      | cons l ls =>
        rw [List.cons_append, List.cons.injEq] at h
        rw [List.cons_append, parts, if_pos hc, ih h.2, ← h.1]
        rfl
    · rw [parts_cons_of_ne hc hp] at h
      cases ls with
      | nil =>
        obtain ⟨rfl, rfl⟩ := List.cons.inj h
        have hone : parts sep s = [] ++ [p] := hp
        have hr : parts sep (s ++ r) = parts sep (p ++ r) := ih hone
        rw [List.nil_append, List.cons_append, List.cons_append, parts_cons_of_ne hc hq,
          parts_cons_of_ne hc (hr ▸ hq)]
      | cons l ls =>
        obtain ⟨rfl, rfl⟩ := List.cons.inj h
        have hmore : parts sep s = (p :: ls) ++ [last] := hp
        have hr : parts sep (s ++ r) = p :: (ls ++ parts sep (last ++ r)) := ih hmore
        rw [List.cons_append, parts_cons_of_ne hc hr]
        rfl

theorem parts_append_parts {t last p : List Char} {ps : List (List Char)}
    (hs : parts sep s = ls ++ [last]) (ht : parts sep t = p :: ps) :
    parts sep (s ++ t) = ls ++ (last ++ p) :: ps := by
  have hlast : sep ∉ last := notMem_of_mem_parts (hs ▸ List.mem_append_right ls List.mem_cons_self)
  rw [parts_append_last hs, parts_append_of_notMem hlast ht]

/-! ## Texts in one line -/

/-- A text without a line break. -/
def IsUnbroken (s : String) : Prop := '\n' ∉ s.toList

instance decidableIsUnbroken (s : String) : Decidable (IsUnbroken s) :=
  inferInstanceAs (Decidable (¬ '\n' ∈ s.toList))

theorem IsUnbroken.append {s t : String} (hs : IsUnbroken s) (ht : IsUnbroken t) :
    IsUnbroken (s ++ t) := by
  unfold IsUnbroken
  rw [String.toList_append, List.mem_append, not_or]
  exact ⟨hs, ht⟩

theorem notMem_intercalate {c : Char} {sep : List Char} (hsep : c ∉ sep)
    (h : ∀ l ∈ ls, c ∉ l) : c ∉ sep.intercalate ls := by
  induction ls with
  | nil => exact List.not_mem_nil
  | cons l ls ih =>
    have hrest := ih fun m hm => h m (List.mem_cons_of_mem l hm)
    cases ls with
    | nil =>
      rw [List.intercalate_singleton]
      exact h l List.mem_cons_self
    | cons m ls =>
      rw [List.intercalate_cons_cons, List.mem_append, List.mem_append, not_or, not_or]
      exact ⟨⟨h l List.mem_cons_self, hsep⟩, hrest⟩

theorem IsUnbroken.intercalate {sep : String} (hsep : IsUnbroken sep) {texts : List String}
    (h : ∀ t ∈ texts, IsUnbroken t) : IsUnbroken (sep.intercalate texts) := by
  unfold IsUnbroken
  rw [String.toList_intercalate]
  refine notMem_intercalate hsep fun l hl => ?_
  obtain ⟨t, ht, rfl⟩ := List.mem_map.1 hl
  exact h t ht

/-! ## Complete lines -/

/-- A text that is made of complete lines, of which the last one has its line break. -/
def IsLines (ls : List (List Char)) (s : List Char) : Prop := parts '\n' s = ls ++ [[]]

instance decidableIsLines (ls : List (List Char)) (s : List Char) : Decidable (IsLines ls s) :=
  inferInstanceAs (Decidable (parts '\n' s = ls ++ [[]]))

namespace IsLines

variable {ms : List (List Char)} {t : List Char}

theorem nil : IsLines [] [] := rfl

/-- A line and its line break. -/
theorem line (h : '\n' ∉ s) : IsLines [s] (s ++ ['\n']) := by
  unfold IsLines
  rw [parts_append, parts_of_notMem h]
  rfl

theorem parts_append (h : IsLines ls s) (r : List Char) :
    parts '\n' (s ++ r) = ls ++ parts '\n' r := parts_append_last h r

theorem append (hs : IsLines ls s) (ht : IsLines ms t) : IsLines (ls ++ ms) (s ++ t) := by
  unfold IsLines
  rw [hs.parts_append, ht, List.append_assoc]

end IsLines

/-! ## Sections -/

def isHeading (line : List Char) : Bool := ['#', '#', ' '].isPrefixOf line

def isItem (line : List Char) : Bool := ['-', ' '].isPrefixOf line

def sectionLines (heading : List Char) : Bool → List (List Char) → List (List Char)
  | _, [] => []
  | inside, line :: ls =>
    if isHeading line then sectionLines heading (line == heading) ls
    else if inside then line :: sectionLines heading inside ls
    else sectionLines heading inside ls

variable {heading line : List Char} {ms : List (List Char)}

theorem sectionLines_heading (h : isHeading line = true) (inside : Bool) :
    sectionLines heading inside (line :: ls) = sectionLines heading (line == heading) ls := by
  rw [sectionLines, if_pos h]

theorem sectionLines_of_notMem (h : heading ∉ ls) :
    sectionLines heading false (ls ++ ms) = sectionLines heading false ms := by
  induction ls with
  | nil => rfl
  | cons line ls ih =>
    rw [List.mem_cons, not_or] at h
    have hline : (line == heading) = false := beq_eq_false_iff_ne.2 (Ne.symm h.1)
    rw [List.cons_append, sectionLines, hline, ih h.2]
    split <;> rfl

/-- A section goes on as long as no line is a heading. -/
theorem sectionLines_inside (h : ∀ line ∈ ls, isHeading line = false) :
    sectionLines heading true (ls ++ ms) = ls ++ sectionLines heading true ms := by
  induction ls with
  | nil => rfl
  | cons line ls ih =>
    rw [List.cons_append, sectionLines, h line List.mem_cons_self,
      ih fun other ho => h other (List.mem_cons_of_mem line ho)]
    rfl

/-- **The section of a heading that stands once** ends with the empty line in front of the next
heading. -/
theorem sectionLines_between {before inside after : List (List Char)} {next : List Char}
    (hbefore : heading ∉ before) (hheading : isHeading heading = true)
    (hinside : ∀ line ∈ inside, isHeading line = false) (hnext : isHeading next = true)
    (hafter : heading ∉ next :: after) :
    sectionLines heading false (before ++ (heading :: (inside ++ [] :: next :: after))) =
      inside ++ [[]] := by
  have hempty : isHeading [] = false := rfl
  have hrest : sectionLines heading false (next :: after) = [] := by
    have hnil : sectionLines heading false (next :: after ++ []) = [] :=
      sectionLines_of_notMem hafter
    rwa [List.append_nil] at hnil
  have hend : sectionLines heading true (next :: after) = [] := by
    rw [sectionLines_heading hnext] at hrest ⊢
    exact hrest
  rw [sectionLines_of_notMem hbefore, sectionLines_heading hheading, beq_self_eq_true,
    sectionLines_inside hinside, sectionLines, hempty, hend]
  rfl

end IdlDocs.Text
