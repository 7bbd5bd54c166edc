import IdlDocs.Templates.Reader
import Mathlib.Data.List.DropRight

/-!
# Reading expressions as they are written

What a tag refers to is written as a word in quotes, as the name of a key, with steps out of
repetitions in front, or as a mark.  An expression that is written so is read as it is written, up
to the blanks behind it.

* `many_of_text`: a repetition reads the items that a text is made of.
* `isKeyName`: the names that are not read as something else.
* `Expr.source`: how an expression is written.
* `Expr.isWritten`: the test that it can be read again.
* `expr_source`: **an expression is read as it is written.**
-/

namespace IdlDocs.Templates

open Text Text.Parser

variable {rest : List Char}

/-! ## Parsers in front of characters -/

theorem exactly_eq_none {c : Char} {t s : List Char} (h : s.head? ≠ some c) :
    exactly (c :: t) s = none := by
  cases s with
  | nil => rfl
  | cons d s =>
    have hd : c ≠ d := fun he => h (he ▸ rfl)
    rw [exactly, dropLead?, if_neg hd]
    rfl

theorem blanks_apply (s : List Char) : blanks s = some ((), s.dropWhile isBlankChar) := rfl

theorem many_of_none {α : Type} {p : Parser α} {s : List Char} (h : p s = none) :
    many p s = some ([], s) := by
  unfold many
  rw [items_of_none h]

/-- A repetition reads the items that a text is made of, if each of them stands in front of the
text of the others. -/
theorem many_of_text {α : Type} {p : Parser α} {P : α → Prop} (text : List α → List Char)
    (hcons : ∀ a as, P a → (∀ b ∈ as, P b) →
      p (text (a :: as)) = some (a, text as) ∧ (text as).length < (text (a :: as)).length)
    (hnil : p (text []) = none) {as : List α} (has : ∀ a ∈ as, P a) :
    many p (text as) = some (as, text []) := by
  unfold many
  congr 1
  induction as with
  | nil => exact items_of_none hnil
  | cons a as ih =>
    rw [List.forall_mem_cons] at has
    obtain ⟨hp, hlength⟩ := hcons a as has.1 has.2
    rw [items_of_some hp hlength, ih has.2]

/-- A run of characters ends where another character stands. -/
theorem takeWhile_append_end {p : Char → Bool} {n : List Char} (hn : n.all p = true)
    (hrest : rest.head?.all (!p ·) = true) :
    (n ++ rest).takeWhile p = n ∧ (n ++ rest).dropWhile p = rest := by
  have hall : ∀ c ∈ n, p c = true := List.all_eq_true.1 hn
  rw [List.takeWhile_append_of_pos hall, List.dropWhile_append_of_pos hall]
  cases rest with
  | nil => simp
  | cons c rest =>
    have hc : p c = false := by simpa using hrest
    simp [hc]

theorem length_dropWhile_lt {p : Char → Bool} {s t : List Char} (h : s.length < t.length) :
    (s.dropWhile p).length < t.length :=
  Nat.lt_of_le_of_lt (List.dropWhile_sublist p).length_le h

/-! ## Names -/

def EndsName (rest : List Char) : Prop := rest.head?.all (!isNameChar ·) = true

/-- The words that are read as something else than the name of a key. -/
def reservedWords : List String := ["null", "true", "false", "this", "else"]

/-- Tells whether a text is read as the name of a key. -/
def isKeyName (n : String) : Bool :=
  !n.toList.isEmpty && n.toList.all isNameChar && !n.toList.all Char.isDigit &&
    !reservedWords.contains n

theorem isKeyName_iff {n : String} : isKeyName n = true ↔ n.toList ≠ [] ∧
    n.toList.all isNameChar = true ∧ n.toList.all Char.isDigit = false ∧ n ∉ reservedWords := by
  simp [isKeyName, and_assoc]

section Name

variable {n : List Char} (hne : n ≠ []) (hn : n.all isNameChar = true)

include hne hn

theorem name_append (hrest : EndsName rest) : name (n ++ rest) = some (String.ofList n, rest) := by
  obtain ⟨c, cs, rfl⟩ := List.exists_cons_of_ne_nil hne
  rw [List.all_cons, Bool.and_eq_true] at hn
  obtain ⟨htake, hdrop⟩ := takeWhile_append_end hn.2 hrest
  unfold name run1
  rw [map_apply, bind_apply, List.cons_append, satisfy, if_pos hn.1, Option.bind_some, bind_apply,
    run, htake, hdrop]
  rfl

/-- A text with a name in front starts with no other character than that of a name. -/
theorem head?_name_append {c : Char} (hc : isNameChar c = false) :
    (n ++ rest).head? ≠ some c := by
  obtain ⟨d, cs, rfl⟩ := List.exists_cons_of_ne_nil hne
  rw [List.all_cons, Bool.and_eq_true] at hn
  intro he
  cases he
  exact Bool.false_ne_true (hc.symm.trans hn.1)

end Name

theorem name_eq_none {s : List Char} (h : EndsName s) : name s = none := by
  unfold name run1
  rw [map_apply, bind_apply]
  cases s with
  | nil => rfl
  | cons c s =>
    have hc : isNameChar c = false := by simpa [EndsName] using h
    rw [satisfy, if_neg (by simp [hc])]
    rfl

/-! ## How expressions are written -/

/-- How an expression is written. -/
def Expr.source : Expr → List Char
  | .literal (.string s) => '"' :: (s.toList ++ ['"'])
  | .literal _ => []
  | .path _ [] => ['t', 'h', 'i', 's']
  | .path up (k :: _) => (List.replicate up ['.', '.', '/']).flatten ++ k.toList
  | .mark n => '@' :: n.toList

def Expr.isWritten : Expr → Bool
  | .literal (.string s) => s.toList.all Json.isPlain
  | .literal _ => false
  | .path up [] => up == 0
  | .path _ [k] => isKeyName k
  | .path _ (_ :: _ :: _) => false
  | .mark n => !n.toList.isEmpty && n.toList.all isNameChar

@[elab_as_elim]
theorem Expr.written_cases {motive : (e : Expr) → e.isWritten = true → Prop}
    (word : ∀ s (hs : s.toList.all Json.isPlain = true), motive (.literal (.string s)) hs)
    (this : motive (.path 0 []) rfl)
    (key : ∀ k (hk : isKeyName k = true), motive (.path 0 [k]) hk)
    (outer : ∀ up k (hk : isKeyName k = true), motive (.path (up + 1) [k]) hk)
    (mark : ∀ n (_ : n.toList ≠ []) (_ : n.toList.all isNameChar = true)
      (h : (Expr.mark n).isWritten = true), motive (.mark n) h)
    (e : Expr) (he : e.isWritten = true) : motive e he := by
  cases e with
  | literal j =>
    cases j with
    | string s => exact word s he
    | _ => cases he
  | path up keys =>
    cases keys with
    | nil =>
      obtain rfl : up = 0 := beq_iff_eq.1 he
      exact this
    | cons k keys =>
      cases keys with
      | nil =>
        cases up with
        | zero => exact key k he
        | succ up => exact outer up k he
      | cons _ _ => cases he
  | mark n =>
    have hn : n.toList ≠ [] ∧ n.toList.all isNameChar = true := by
      simpa [Expr.isWritten] using he
    exact mark n hn.1 hn.2 he

/-- What stands behind an expression: a blank, or the end of the tag. -/
def EndsExpr (rest : List Char) : Prop := rest.head?.any (fun c => c == ' ' || c == '\x7d') = true

theorem EndsExpr.cases (h : EndsExpr rest) : ∃ r, rest = ' ' :: r ∨ rest = '\x7d' :: r := by
  cases rest with
  | nil => cases h
  | cons c r =>
    have hc : c = ' ' ∨ c = '\x7d' := by simpa [EndsExpr] using h
    rcases hc with rfl | rfl
    · exact ⟨r, .inl rfl⟩
    · exact ⟨r, .inr rfl⟩

theorem EndsExpr.endsName (h : EndsExpr rest) : EndsName rest := by
  obtain ⟨r, rfl | rfl⟩ := h.cases <;> rfl

def startsExpr (c : Char) : Bool := isNameChar c || c == '"' || c == '.' || c == '@'

theorem not_isBlankChar_of_startsExpr {c : Char} (hc : startsExpr c = true) :
    isBlankChar c = false := by
  by_contra hne
  rw [Bool.not_eq_false] at hne
  unfold isBlankChar at hne
  simp only [Bool.or_eq_true, beq_iff_eq] at hne
  rcases hne with ((rfl | rfl) | rfl) | rfl <;> exact Bool.false_ne_true hc

theorem dropWhile_of_startsExpr {c : Char} (hc : startsExpr c = true) (s : List Char) :
    (c :: s).dropWhile isBlankChar = c :: s :=
  List.dropWhile_cons_of_neg (by simp [not_isBlankChar_of_startsExpr hc])

theorem exists_key_cons {k : String} (hk : isKeyName k = true) :
    ∃ c cs, k.toList = c :: cs ∧ startsExpr c = true := by
  obtain ⟨hne, hn, -⟩ := isKeyName_iff.1 hk
  obtain ⟨c, cs, hc⟩ := List.exists_cons_of_ne_nil hne
  rw [hc, List.all_cons, Bool.and_eq_true] at hn
  exact ⟨c, cs, hc, by simp [startsExpr, hn.1]⟩

theorem exists_source_cons {e : Expr} (he : e.isWritten = true) :
    ∃ c cs, e.source = c :: cs ∧ startsExpr c = true := by
  induction e, he using Expr.written_cases with
  | word s hs => exact ⟨_, _, rfl, rfl⟩
  | this => exact ⟨_, _, rfl, rfl⟩
  | key k hk => exact exists_key_cons hk
  | outer up k hk => exact ⟨_, _, rfl, rfl⟩
  | mark n => exact ⟨_, _, rfl, rfl⟩

/-! ## Reading expressions -/

theorem quotedString_eq_none {s : List Char} (h : s.head? ≠ some '"') (h' : s.head? ≠ some '\'') :
    quotedString s = none := by
  unfold quotedString Json.text
  rw [orElse_apply, bind_apply, bind_apply, exactly_eq_none h, bind_apply, exactly_eq_none h']
  rfl

/-- What starts like a path and is no word for a value is read as a path. -/
theorem expr_of_path {s : List Char} (hat : s.head? ≠ some '@') (hquote : s.head? ≠ some '"')
    (hquote' : s.head? ≠ some '\'') (hword : wordValue s = none) : expr s = path s := by
  unfold expr
  rw [orElse_apply, bind_apply, exactly_eq_none hat, Option.bind_none, Option.none_or, orElse_apply,
    map_apply, quotedString_eq_none hquote hquote', Option.map_none, Option.none_or, orElse_apply,
    map_apply, hword, Option.map_none, Option.none_or]

theorem wordValue_of_endsName {s : List Char} (h : EndsName s) : wordValue s = none := by
  unfold wordValue
  rw [bind_apply, name_eq_none h]
  rfl

/-- Steps out of repetitions, in front of a name. -/
theorem many_ups (up : Nat) {s : List Char} (hs : s.head? ≠ some '.') :
    many (exactly ['.', '.', '/']) ((List.replicate up ['.', '.', '/']).flatten ++ s) =
      some (List.replicate up (), s) := by
  unfold many
  congr 1
  induction up with
  | zero => exact items_of_none (exactly_eq_none hs)
  | succ up ih =>
    have hstep : exactly ['.', '.', '/']
        ((List.replicate (up + 1) ['.', '.', '/']).flatten ++ s) =
          some ((), (List.replicate up ['.', '.', '/']).flatten ++ s) := rfl
    have hlength : ((List.replicate up ['.', '.', '/']).flatten ++ s).length <
        ((List.replicate (up + 1) ['.', '.', '/']).flatten ++ s).length := by
      simp only [List.replicate_succ, List.flatten_cons, List.length_append, List.length_cons]
      omega
    rw [items_of_some hstep hlength, ih]
    rfl

theorem moreKeys_end (h : EndsExpr rest) : moreKeys rest = some ([], rest) := by
  obtain ⟨r, rfl | rfl⟩ := h.cases <;> exact many_of_none rfl

section Path

variable {n : List Char} (hne : n ≠ []) (hn : n.all isNameChar = true) (hrest : EndsExpr rest)

include hne hn hrest

theorem path_name (up : Nat) :
    path ((List.replicate up ['.', '.', '/']).flatten ++ (n ++ rest)) =
      some (.path up (if String.ofList n == "this" then [] else [String.ofList n]), rest) := by
  have hdot : (n ++ rest).head? ≠ some '.' := head?_name_append hne hn rfl
  unfold path Parser.optional key
  rw [bind_apply, many_ups up hdot, Option.bind_some, orElse_apply, bind_apply,
    exactly_eq_none hdot, Option.bind_none, Option.none_or, orElse_apply, bind_apply, orElse_apply,
    map_apply, exactly_eq_none hdot, Option.map_none, Option.none_or, pure_apply, Option.bind_some,
    bind_apply, orElse_apply, name_append hne hn hrest.endsName, Option.some_or, Option.bind_some,
    bind_apply, moreKeys_end hrest, Option.bind_some, pure_apply, Option.some_or,
    List.length_replicate]

theorem wordValue_name (hvalue : wordValues.lookup (String.ofList n) = none)
    (hdigit : n.all Char.isDigit = false) : wordValue (n ++ rest) = none := by
  unfold wordValue
  rw [bind_apply, name_append hne hn hrest.endsName, Option.bind_some, hvalue, String.toList_ofList,
    hdigit]
  rfl

theorem expr_name (hvalue : wordValues.lookup (String.ofList n) = none)
    (hdigit : n.all Char.isDigit = false) : expr (n ++ rest) =
      some (.path 0 (if String.ofList n == "this" then [] else [String.ofList n]), rest) := by
  have hhead : ∀ c, isNameChar c = false → (n ++ rest).head? ≠ some c :=
    fun c hc => head?_name_append hne hn hc
  have hword : wordValue (n ++ rest) = none := wordValue_name hne hn hrest hvalue hdigit
  rw [expr_of_path (hhead _ rfl) (hhead _ rfl) (hhead _ rfl) hword]
  exact path_name hne hn hrest 0

end Path

theorem keyPath_eq {k : String} (hk : isKeyName k = true) :
    (if String.ofList k.toList == "this" then [] else [String.ofList k.toList]) = [k] ∧
      wordValues.lookup (String.ofList k.toList) = none := by
  obtain ⟨-, -, -, hreserved⟩ := isKeyName_iff.1 hk
  have hsub : ∀ x ∈ wordValues, x.1 ∈ reservedWords := by decide
  have hthis : (k == "this") = false := by
    rw [beq_eq_false_iff_ne]
    rintro rfl
    exact hreserved (by decide)
  rw [String.ofList_toList, hthis]
  refine ⟨rfl, List.lookup_eq_none_iff.2 fun x hx => bne_iff_ne.2 ?_⟩
  rintro rfl
  exact hreserved (hsub x hx)

/-- The pieces of a string that stands for itself: one, or none if it is empty. -/
theorem many_stringPiece {s : List Char} (hs : s.all Json.isPlain = true) :
    many Json.stringPiece (s ++ '"' :: rest) =
      some (if s.isEmpty then [] else [some s], '"' :: rest) := by
  have hend : Json.stringPiece ('"' :: rest) = none := rfl
  cases s with
  | nil => exact many_of_none hend
  | cons c s =>
    rw [List.all_cons, Bool.and_eq_true] at hs
    have hquote : ('"' :: rest).head?.all (!Json.isPlain ·) = true := rfl
    obtain ⟨htake, hdrop⟩ := takeWhile_append_end hs.2 hquote
    have hpiece : Json.stringPiece (c :: s ++ '"' :: rest) = some (some (c :: s), '"' :: rest) := by
      unfold Json.stringPiece run1
      rw [orElse_apply, map_apply, bind_apply, List.cons_append, satisfy, if_pos hs.1,
        Option.bind_some, bind_apply, run, htake, hdrop]
      rfl
    unfold many
    have hlength : ('"' :: rest).length < (c :: s ++ '"' :: rest).length := by
      simp only [List.length_append, List.length_cons]
      omega
    rw [items_of_some hpiece hlength, items_of_none hend]
    rfl

theorem text_string {s : String} (hs : s.toList.all Json.isPlain = true) :
    Json.text ('"' :: (s.toList ++ '"' :: rest)) = some (some s, rest.dropWhile isBlankChar) := by
  have hopen : exactly ['"'] ('"' :: (s.toList ++ '"' :: rest)) =
      some ((), s.toList ++ '"' :: rest) := rfl
  have hclose : Json.mark '"' ('"' :: rest) = some ((), rest.dropWhile isBlankChar) := rfl
  unfold Json.text
  rw [bind_apply, hopen, Option.bind_some, bind_apply, many_stringPiece hs, Option.bind_some,
    bind_apply, hclose, Option.bind_some, pure_apply]
  cases hempty : s.toList.isEmpty with
  | true =>
    have hs : s = "" := String.toList_inj.1 (List.isEmpty_iff.1 hempty)
    rw [hs]
    rfl
  | false => simp

/-- **An expression is read as it is written**, up to the blanks behind it. -/
theorem expr_source {e : Expr} (he : e.isWritten = true) (hrest : EndsExpr rest) :
    ∃ r, expr (e.source ++ rest) = some (e, r) ∧
      r.dropWhile isBlankChar = rest.dropWhile isBlankChar := by
  induction e, he using Expr.written_cases with
  | word s hs =>
    have hat : exactly ['@'] ('"' :: (s.toList ++ '"' :: rest)) = none := rfl
    have hsource : (Expr.literal (.string s)).source ++ rest =
        '"' :: (s.toList ++ '"' :: rest) := by
      simp [Expr.source]
    refine ⟨_, ?_, List.dropWhile_idempotent _ _⟩
    unfold expr quotedString
    rw [hsource, orElse_apply, bind_apply, hat, Option.bind_none, Option.none_or, orElse_apply,
      map_apply, orElse_apply, bind_apply, text_string hs]
    rfl
  | this =>
    have hn : ['t', 'h', 'i', 's'].all isNameChar = true := by decide
    exact ⟨rest, expr_name (List.cons_ne_nil _ _) hn hrest (by decide) (by decide), rfl⟩
  | key k hk =>
    obtain ⟨hne, hn, hdigit, -⟩ := isKeyName_iff.1 hk
    obtain ⟨hpath, hvalue⟩ := keyPath_eq hk
    have hexpr := expr_name hne hn hrest hvalue hdigit
    rw [hpath] at hexpr
    exact ⟨rest, hexpr, rfl⟩
  | outer up k hk =>
    obtain ⟨hne, hn, -, -⟩ := isKeyName_iff.1 hk
    have hexpr := path_name hne hn hrest (up + 1)
    have hends : EndsName ((List.replicate (up + 1) ['.', '.', '/']).flatten ++
        (k.toList ++ rest)) := rfl
    have hhead : ((List.replicate (up + 1) ['.', '.', '/']).flatten ++ (k.toList ++ rest)).head? =
        some '.' := rfl
    have hsame := expr_of_path (by simp [hhead]) (by simp [hhead]) (by simp [hhead])
      (wordValue_of_endsName hends)
    rw [(keyPath_eq hk).1, ← hsame] at hexpr
    refine ⟨rest, ?_, rfl⟩
    rw [← hexpr, Expr.source, List.append_assoc]
  | mark n hne hn =>
    have hat : exactly ['@'] ('@' :: n.toList ++ rest) = some ((), n.toList ++ rest) := rfl
    refine ⟨rest, ?_, rfl⟩
    unfold expr Expr.source
    rw [orElse_apply, bind_apply, hat, Option.bind_some, bind_apply,
      name_append hne hn hrest.endsName, String.ofList_toList]
    rfl

theorem expr_end (r : List Char) : expr ('\x7d' :: r) = none := by
  have hups : many (exactly ['.', '.', '/']) ('\x7d' :: r) = some ([], '\x7d' :: r) :=
    many_of_none rfl
  have hends : EndsName ('\x7d' :: r) := rfl
  rw [expr_of_path (by simp) (by simp) (by simp) (wordValue_of_endsName hends)]
  unfold path
  rw [bind_apply, hups]
  rfl

end IdlDocs.Templates
