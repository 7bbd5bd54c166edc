import IdlDocs.Proofs.Idl.InStep.Levels
import Mathlib.Logic.Function.Iterate

/-!
# The tokens of types

A type is a row of **tokens**: words, and marks of one character, with blanks around them.  What
the grammar reads of a type depends on this row only, and not on the blanks.

* `Token`, `firstToken?`, `tokens`, `after`: the tokens of a text, and what follows the first one.
* `keyword_apply`, `mark_apply`, `identifier_apply`: **the parsers of tokens**, by the first token
  of a text.
* `present_of_none`, `nullableMark_apply`, `attributesOf_apply`, `docs_apply`: what need not be
  there.
* `tokens_word_append`, `tokens_mark_cons`, `tokens_space_cons`: the tokens of a text that is put
  together.
-/

namespace IdlDocs.Idl

open Text Text.Parser

variable {s r : List Char} {w m : String} {c : Char}

def isWordStart (c : Char) : Bool := isAlnum c || c == '_'

theorem isWordChar_of_isWordStart (h : isWordStart c = true) : isWordChar c = true := by
  unfold isWordStart at h
  unfold isWordChar
  rw [h]
  rfl

/-- A token of a type. -/
inductive Token
  | word (w : String)
  | mark (c : Char)
deriving DecidableEq

def firstToken? (s : List Char) : Option (Token × List Char) :=
  match skipBlank s with
  | [] => none
  | c :: r =>
    if isWordStart c then
      some (.word (String.ofList (c :: r.takeWhile isWordChar)),
        skipBlank (r.dropWhile isWordChar))
    else some (.mark c, skipBlank r)

theorem firstToken?_length {x : Token × List Char} (h : firstToken? s = some x) :
    x.2.length < s.length := by
  have hle := length_skipBlank_le s
  unfold firstToken? at h
  split at h
  · cases h
  · next c r hs =>
    rw [hs, List.length_cons] at hle
    split at h
    · cases h
      have := length_skipBlank_le (r.dropWhile isWordChar)
      have := (List.dropWhile_suffix isWordChar (l := r)).length_le
      dsimp only
      omega
    · cases h
      have := length_skipBlank_le r
      dsimp only
      omega

def tokens (s : List Char) : List Token :=
  match h : firstToken? s with
  | none => []
  | some x =>
    have := firstToken?_length h
    x.1 :: tokens x.2
termination_by s.length

def after (s : List Char) : List Char := ((firstToken? s).map Prod.snd).getD s

theorem tokens_of_none (h : firstToken? s = none) : tokens s = [] := by
  rw [tokens]
  split
  · rfl
  · next h' => rw [h] at h'; cases h'

theorem tokens_of_some {x : Token × List Char} (h : firstToken? s = some x) :
    tokens s = x.1 :: tokens x.2 := by
  rw [tokens]
  split
  · next h' => rw [h] at h'; cases h'
  · next h' => rw [h] at h'; cases h'; rfl

theorem head?_tokens (s : List Char) : (tokens s).head? = (firstToken? s).map Prod.fst := by
  cases h : firstToken? s with
  | none => rw [tokens_of_none h]; rfl
  | some x => rw [tokens_of_some h]; rfl

@[simp]
theorem tokens_after (s : List Char) : tokens (after s) = (tokens s).tail := by
  unfold after
  cases h : firstToken? s with
  | none =>
    show tokens s = _
    rw [tokens_of_none h]
    rfl
  | some x => rw [tokens_of_some h]; rfl

theorem length_after (h : tokens s ≠ []) : (after s).length < s.length := by
  cases hs : firstToken? s with
  | none => exact absurd (tokens_of_none hs) h
  | some x =>
    unfold after
    rw [hs]
    exact firstToken?_length hs

@[simp]
theorem tokens_iterate_after (s : List Char) (k : Nat) :
    tokens (after^[k] s) = (tokens s).drop k := by
  induction k with
  | zero => rfl
  | succ k ih => rw [Function.iterate_succ_apply', tokens_after, ih, List.tail_drop]

theorem length_after_le (s : List Char) : after s = s ∨ (after s).length < s.length := by
  by_cases h : tokens s = []
  · refine .inl ?_
    cases hs : firstToken? s with
    | none => unfold after; rw [hs]; rfl
    | some x => rw [tokens_of_some hs] at h; cases h
  · exact .inr (length_after h)

theorem length_iterate_after (s : List Char) (k : Nat) :
    after^[k] s = s ∨ (after^[k] s).length < s.length := by
  induction k with
  | zero => exact .inl rfl
  | succ k ih =>
    rw [Function.iterate_succ_apply']
    have hstep := length_after_le (after^[k] s)
    grind

/-- A text has no more tokens than characters.  By induction on the tokens. -/
theorem length_tokens_le (s : List Char) : (tokens s).length ≤ s.length := by
  induction hn : (tokens s).length generalizing s with
  | zero => exact Nat.zero_le _
  | succ n ih =>
    have hne : tokens s ≠ [] := by
      intro he
      rw [he] at hn
      cases hn
    have hle := ih (after s) (by rw [tokens_after, List.length_tail, hn]; rfl)
    have := length_after hne
    omega

/-! ## The parsers of tokens -/

def IsWord (w : String) : Prop :=
  w.toList.head?.any isWordStart = true ∧ w.toList.all isWordChar = true

instance (w : String) : Decidable (IsWord w) := inferInstanceAs (Decidable (_ ∧ _))

/-- By induction on the word. -/
theorem exactly_notBefore {w : List Char} (hw : w.all isWordChar = true) (s : List Char) :
    (exactly w *> notBefore isWordChar) s =
      if s.takeWhile isWordChar = w then some ((), s.dropWhile isWordChar) else none := by
  induction w generalizing s with
  | nil =>
    cases s with
    | nil => rfl
    | cons c s => by_cases hc : isWordChar c = true <;> simp [seqRight_eq_bind, bind_apply, exactly,
        dropLead?, notBefore, hc]
  | cons d w ih =>
    rw [List.all_cons, Bool.and_eq_true] at hw
    cases s with
    | nil => rfl
    | cons c s =>
      rw [seqRight_eq_bind, bind_apply]
      by_cases hcd : d = c
      · subst hcd
        have hrest := ih hw.2 s
        rw [seqRight_eq_bind, bind_apply] at hrest
        rw [List.takeWhile_cons_of_pos hw.1, List.dropWhile_cons_of_pos hw.1]
        simpa [exactly, dropLead?] using hrest
      · have hne : (c :: s).takeWhile isWordChar ≠ d :: w := by
          intro he
          rw [List.takeWhile_cons] at he
          split at he
          · exact hcd (List.cons.inj he).1.symm
          · cases he
        simp [exactly, dropLead?, hcd, hne]

/-- **A keyword is the first token of a text, or it is not there.** -/
theorem keyword_apply (hw : IsWord w) (s : List Char) :
    keyword w s = if (tokens s).head? = some (.word w) then some ((), after s) else none := by
  unfold keyword
  rw [token_apply, exactly_notBefore hw.2, head?_tokens]
  unfold after firstToken?
  obtain ⟨d, hhead, hd⟩ := (Option.any_eq_true _ _).1 hw.1
  obtain ⟨w', hw'⟩ := List.head?_eq_some_iff.1 hhead
  cases skipBlank s with
  | nil =>
    have hne : ([] : List Char).takeWhile isWordChar ≠ w.toList := by
      rw [hw']
      exact nofun
    rw [if_neg hne]
    rfl
  | cons c t =>
    by_cases hc : isWordStart c = true
    · have hchar := isWordChar_of_isWordStart hc
      have hsame : c :: t.takeWhile isWordChar = w.toList ↔
          String.ofList (c :: t.takeWhile isWordChar) = w := by
        rw [← String.toList_inj, String.toList_ofList]
      simp only [List.takeWhile_cons_of_pos hchar, List.dropWhile_cons_of_pos hchar, hc, if_true,
        Option.map_some, Option.getD_some, Option.some_inj, Token.word.injEq, hsame]
      split <;> rfl
    · have hne : (c :: t).takeWhile isWordChar ≠ w.toList := by
        rw [hw', List.takeWhile_cons]
        intro he
        split at he
        · exact hc ((List.cons.inj he).1 ▸ hd)
        · cases he
      simp [hc, hne]

/-- **A mark is the first token of a text, or it is not there.** -/
theorem mark_apply (hm : m.toList = [c]) (hc : isWordStart c = false) (s : List Char) :
    mark m s = if (tokens s).head? = some (.mark c) then some ((), after s) else none := by
  unfold mark
  rw [token_apply, hm, head?_tokens]
  unfold after firstToken?
  cases skipBlank s with
  | nil => rfl
  | cons d t =>
    by_cases hd : isWordStart d = true
    · have hne : c ≠ d := by
        rintro rfl
        rw [hc] at hd
        cases hd
      simp [exactly, dropLead?, hd, hne]
    · by_cases he : c = d
      · simp [exactly, dropLead?, he, hd]
      · simp [exactly, dropLead?, he, hd, Ne.symm he]

def dropLow (s : List Char) : List Char := if s.head? = some '_' then s.tail else s

/-- The name that a word is read as, which starts with a letter or a digit. -/
def nameOf? (w : String) : Option String :=
  if (dropLow w.toList).head?.any isAlnum then some (String.ofList (dropLow w.toList)) else none

def Token.name? : Token → Option String
  | .word w => nameOf? w
  | .mark _ => none

theorem isWordChar_of_isAlnum (h : isAlnum c = true) : isWordChar c = true := by
  unfold isWordChar
  rw [h]
  rfl

theorem any_head?_takeWhile (s : List Char) :
    (s.takeWhile isWordChar).head?.any isAlnum = s.head?.any isAlnum := by
  cases s with
  | nil => rfl
  | cons c s =>
    by_cases hc : isWordChar c = true
    · rw [List.takeWhile_cons_of_pos hc]
      rfl
    · have hnot : isAlnum c = false := by
        rw [← Bool.not_eq_true]
        exact fun h => hc (isWordChar_of_isAlnum h)
      rw [List.takeWhile_cons_of_neg hc]
      exact hnot.symm

theorem word_apply (s : List Char) :
    word s = if s.head?.any isAlnum then some (s.takeWhile isWordChar, s.dropWhile isWordChar)
      else none := by
  show ((satisfy isAlnum s).bind fun x =>
    some (x.1 :: x.2.takeWhile isWordChar, x.2.dropWhile isWordChar)) = _
  cases s with
  | nil => rfl
  | cons c s =>
    by_cases hc : isAlnum c = true
    · simp [satisfy, hc, isWordChar_of_isAlnum hc]
    · simp [satisfy, hc]

/-- **An identifier is a word that is a name.** -/
theorem identifier_apply (s : List Char) :
    identifier s = ((tokens s).head?.bind Token.name?).map (·, after s) := by
  unfold identifier
  rw [token_apply, head?_tokens]
  unfold after firstToken?
  cases skipBlank s with
  | nil => rfl
  | cons c t =>
    rw [bind_apply]
    by_cases hlow : c = '_'
    · subst hlow
      have hpresent : present (exactly ['_']) ('_' :: t) = some (true, t) := by
        simp [present, orElse_apply, map_apply, exactly, dropLead?]
      have hstart : isWordStart '_' = true := by decide
      rw [hpresent, Option.bind_some, bind_apply, word_apply]
      simp only [hstart, if_true, Option.map_some, Option.bind_some, Token.name?, nameOf?, dropLow,
        String.toList_ofList, List.head?_cons, List.tail_cons, any_head?_takeWhile,
        Option.getD_some]
      cases t.head?.any isAlnum <;> rfl
    · have hpresent : present (exactly ['_']) (c :: t) = some (false, c :: t) := by
        simp [present, orElse_apply, map_apply, exactly, dropLead?, Ne.symm hlow, pure_apply]
      rw [hpresent, Option.bind_some, bind_apply, word_apply]
      by_cases hc : isAlnum c = true
      · have hstart : isWordStart c = true := by simp [isWordStart, hc]
        simp [hstart, hc, isWordChar_of_isAlnum hc, hlow, Token.name?, nameOf?, dropLow,
          pure_apply]
      · have hstart : isWordStart c = false := by simp [isWordStart, hc, hlow]
        simp [hstart, hc, Token.name?]

theorem keyword_eq_some_iff (hw : IsWord w) {u : Unit} :
    keyword w s = some (u, r) ↔ (tokens s).head? = some (.word w) ∧ r = after s := by
  rw [keyword_apply hw]
  split
  · next h => simp [h, eq_comm]
  · next h => simp [h]

theorem mark_eq_some_iff (hm : m.toList = [c]) (hc : isWordStart c = false) {u : Unit} :
    mark m s = some (u, r) ↔ (tokens s).head? = some (.mark c) ∧ r = after s := by
  rw [mark_apply hm hc]
  split
  · next h => simp [h, eq_comm]
  · next h => simp [h]

/-! ## What need not be there -/

section Optional

variable {α : Type} {p : Parser α}

theorem present_of_some {x : α × List Char} (h : p s = some x) :
    present p s = some (true, x.2) := by
  unfold present
  rw [orElse_apply, map_apply, h]
  rfl

theorem present_of_none (h : p s = none) : present p s = some (false, s) := by
  unfold present
  rw [orElse_apply, map_apply, h]
  rfl

end Optional

theorem nullableMark_apply (s : List Char) :
    nullableMark s = some (if (tokens s).head? = some (.mark '?') then (true, after s)
      else (false, s)) := by
  have hmark := mark_apply (m := "?") (c := '?') rfl (by decide) s
  unfold nullableMark
  split
  · next h =>
    rw [if_pos h] at hmark
    exact present_of_some hmark
  · next h =>
    rw [if_neg h] at hmark
    exact present_of_none hmark

theorem attributesOf_apply (n : Nat) (h : (tokens s).head? ≠ some (.mark '[')) :
    attributesOf (levelAt n) s = some ([], s) := by
  have hnone : (levelAt n).attributes s = none := by
    cases n with
    | zero => rfl
    | succ n =>
      show ((mark "[" s).bind _) = none
      rw [mark_apply (m := "[") (c := '[') rfl (by decide), if_neg h]
      rfl
  unfold attributesOf
  rw [orElse_apply, hnone]
  rfl

theorem head?_tokens_of_skipBlank (h : skipBlank s = c :: r) (hc : isWordStart c = false) :
    (tokens s).head? = some (.mark c) := by
  rw [head?_tokens, firstToken?, h]
  simp [hc]

theorem docs_apply (h : (tokens s).head? ≠ some (.mark '/')) : docs s = some ((), s) := by
  have hnone : docLine s = none := by
    rw [docLine_apply]
    cases hs : afterDoc? s with
    | none => rfl
    | some r =>
      obtain ⟨t, ht, -⟩ := exists_of_afterDoc? hs
      exact absurd (head?_tokens_of_skipBlank ht (by decide)) h
  unfold docs
  rw [map_apply, many, items_of_none hnone]
  rfl

/-! ## The tokens of a text that is put together -/

theorem tokens_skipBlank (s : List Char) : tokens (skipBlank s) = tokens s := by
  have hfirst : firstToken? (skipBlank s) = firstToken? s := by
    unfold firstToken?
    rw [skipBlank_skipBlank]
  cases h : firstToken? s with
  | none => rw [tokens_of_none h, tokens_of_none (hfirst.trans h)]
  | some x => rw [tokens_of_some h, tokens_of_some (hfirst.trans h)]

theorem tokens_nil : tokens [] = [] := tokens_of_none (by rw [firstToken?, skipBlank_nil])

theorem tokens_space_cons (hc : isSpace c = true) (s : List Char) :
    tokens (c :: s) = tokens s := by
  rw [← tokens_skipBlank, skipBlank_of_space hc, tokens_skipBlank]

def IsMark (c : Char) : Prop := isWordChar c = false ∧ isSpace c = false ∧ c ≠ '/'

instance (c : Char) : Decidable (IsMark c) := inferInstanceAs (Decidable (_ ∧ _ ∧ _))

theorem tokens_mark_cons (hc : IsMark c) (s : List Char) :
    tokens (c :: s) = .mark c :: tokens s := by
  have hfirst : firstToken? (c :: s) = some (.mark c, skipBlank s) := by
    have hstart : isWordStart c = false := by
      rw [← Bool.not_eq_true]
      intro h
      exact Bool.false_ne_true (hc.1.symm.trans (isWordChar_of_isWordStart h))
    rw [firstToken?, skipBlank_of_stop (afterComment?_of_ne hc.2.2) hc.2.1]
    simp [hstart]
  rw [tokens_of_some hfirst, tokens_skipBlank]

theorem isSpace_of_isWordStart (h : isWordStart c = true) : isSpace c = false := by
  cases hs : isSpace c with
  | false => rfl
  | true =>
    simp only [isSpace, Bool.or_eq_true, beq_iff_eq] at hs
    rcases hs with ((rfl | rfl) | rfl) | rfl <;> exact absurd h (by decide)

theorem skipBlank_word_append (hw : IsWord w) (s : List Char) :
    skipBlank (w.toList ++ s) = w.toList ++ s := by
  obtain ⟨c, hhead, hc⟩ := (Option.any_eq_true _ _).1 hw.1
  obtain ⟨w', hw'⟩ := List.head?_eq_some_iff.1 hhead
  have hslash : c ≠ '/' := by
    rintro rfl
    exact absurd hc (by decide)
  rw [hw', List.cons_append,
    skipBlank_of_stop (afterComment?_of_ne hslash) (isSpace_of_isWordStart hc)]

/-- **A word ends where no character of words follows it.** -/
theorem firstToken?_word_append (hw : IsWord w) (hs : s.head?.all (!isWordChar ·) = true) :
    firstToken? (w.toList ++ s) = some (.word w, skipBlank s) := by
  have hskip := skipBlank_word_append hw s
  obtain ⟨c, hhead, hc⟩ := (Option.any_eq_true _ _).1 hw.1
  obtain ⟨w', hw'⟩ := List.head?_eq_some_iff.1 hhead
  have hall : ∀ d ∈ w', isWordChar d = true := by
    intro d hd
    exact List.all_eq_true.1 hw.2 d (hw' ▸ List.mem_cons_of_mem c hd)
  have hstop : s.takeWhile isWordChar = [] ∧ s.dropWhile isWordChar = s := by
    cases s with
    | nil => exact ⟨rfl, rfl⟩
    | cons d s =>
      have hd : isWordChar d = false := by simpa using hs
      simp [hd]
  rw [firstToken?, hskip, hw', List.cons_append]
  simp only [hc, if_true]
  rw [List.takeWhile_append_of_pos hall, List.dropWhile_append_of_pos hall, hstop.1, hstop.2,
    List.append_nil, ← hw', String.ofList_toList]

theorem tokens_word_append (hw : IsWord w) (hs : s.head?.all (!isWordChar ·) = true) :
    tokens (w.toList ++ s) = .word w :: tokens s := by
  rw [tokens_of_some (firstToken?_word_append hw hs), tokens_skipBlank]

theorem after_word_append (hw : IsWord w) (hs : s.head?.all (!isWordChar ·) = true) :
    after (w.toList ++ s) = skipBlank s := by
  unfold after
  rw [firstToken?_word_append hw hs]
  rfl

end IdlDocs.Idl
