import IdlDocs.Idl.Equality
import IdlDocs.Proofs.Idl.Joined
import IdlDocs.Proofs.Idl.Positions

/-!
# Where a text is refused

A text is refused at the first definition that cannot be read.  The error tells the line and the
column of the place behind the blanks of Unicode that follow the last definition before it, in the
text as it was before its wildcards were filled.

* `exists_front_of_statements`: what stands behind the definitions of a text has no part in them.
* `exists_of_fillWildcards`: a filled text is cut where the text itself is.
* `Refused`, `exists_refused_of_error`: **the text in front of the place is accepted**, and gives
  the definitions that were read.
* `error_at_comment`: comments are skipped by the grammar, but not in front of the place.
-/

namespace IdlDocs.Idl

open Text Text.Parser

variable {s t r u : List Char}

/-! ## Blanks at the front -/

theorem getLast?_of_afterLine? {b : List Char} (h : afterLine? b = some []) :
    b.getLast? = some '\n' := by
  obtain ⟨l, -, rfl⟩ := exists_line_of_afterLine? h
  exact List.getLast?_concat

theorem getLast?_of_afterBlock? {b : List Char} (h : afterBlock? b = some []) :
    b.getLast? = some '/' := by
  obtain ⟨l, -, rfl⟩ := exists_block_of_afterBlock? h
  rw [List.getLast?_append]
  rfl

/-- A comment ends with a line break or a slash. -/
theorem getLast?_of_afterComment? {b : List Char} (h : afterComment? b = some []) :
    b.getLast? = some '\n' ∨ b.getLast? = some '/' := by
  rcases afterComment?_cases h with ⟨t, rfl, -, hline⟩ | ⟨t, rfl, hblock⟩
  · left
    rw [List.getLast?_cons, List.getLast?_cons, getLast?_of_afterLine? hline]
    rfl
  · right
    rw [List.getLast?_cons, List.getLast?_cons, getLast?_of_afterBlock? hblock]
    rfl

theorem getLast?_append_ne {c : Char} (hs : s.getLast? ≠ some c) (ht : t.getLast? ≠ some c) :
    (s ++ t).getLast? ≠ some c := by
  rw [List.getLast?_append]
  cases h : t.getLast? with
  | none => exact hs
  | some d =>
    rw [h] at ht
    exact ht

theorem exists_blanks (s : List Char) :
    ∃ b, s = b ++ skipBlank s ∧ skipBlank b = [] ∧ b.getLast? ≠ some '=' := by
  induction s using skipBlank_cases with
  | comment s r hr ih =>
    obtain ⟨b, hb, hskip, hlast⟩ := ih
    obtain ⟨c, rfl, hc⟩ := exists_of_afterComment? hr
    refine ⟨c ++ b, ?_, ?_, ?_⟩
    · rw [skipBlank_of_comment hr, List.append_assoc, ← hb]
    · rw [skipBlank_of_comment (afterComment?_append hc b)]
      exact hskip
    · refine getLast?_append_ne ?_ hlast
      rcases getLast?_of_afterComment? hc with he | he <;> simp [he]
  | space c s hc ih =>
    obtain ⟨b, hb, hskip, hlast⟩ := ih
    refine ⟨c :: b, ?_, ?_, ?_⟩
    · rw [skipBlank_of_space hc, List.cons_append, ← hb]
    · rw [skipBlank_of_space hc, hskip]
    · refine getLast?_append_ne (s := [c]) ?_ hlast
      rintro he
      cases he
      exact absurd hc (by decide)
  | stop s hs => exact ⟨[], by rw [hs]; rfl, skipBlank_nil, nofun⟩

/-! ## Definitions at the front -/

/-- A definition with the blanks behind it is read whatever follows. -/
theorem exists_front_of_next {o : Option Definition} (h : definition? s = some (o, r)) :
    ∃ w, s = w ++ r ∧ w.getLast? ≠ some '=' ∧ skipBlank r = r ∧
      ∀ z, definition? (w ++ z) = some (o, skipBlank z) ∧
        (skipBlank s = s → skipBlank (w ++ z) = w ++ z) := by
  obtain ⟨w, y, rfl, rfl, hw⟩ := exists_front_of_definition h
  obtain ⟨b, hb, hskip, hlast⟩ := exists_blanks y
  refine ⟨w ++ ';' :: b, by simp [← hb], ?_, skipBlank_skipBlank y, fun z => ?_⟩
  · rw [List.append_cons]
    exact getLast?_append_ne (by simp) hlast
  · have hjoin : w ++ ';' :: b ++ z = w ++ ';' :: (b ++ z) := by simp
    rw [hjoin, (hw (b ++ z)).1, skipBlank_append_of_nil hskip]
    exact ⟨rfl, (hw (b ++ z)).2⟩

/-- **What stands behind the definitions of a text has no part in them**: they are read from the
text in front of it too, with blanks in its place.  By induction on the definitions. -/
theorem exists_front_of_statements (s : List Char) (h : (statements s).1 ≠ []) :
    ∃ u, s = u ++ (statements s).2 ∧ u.getLast? ≠ some '=' ∧
      skipBlank (statements s).2 = (statements s).2 ∧
      ∀ z, isBlankText z = true → statements (u ++ z) = ((statements s).1, skipBlank z) ∧
        (skipBlank s = s → skipBlank (u ++ z) = u ++ z) := by
  induction s using statements_cases with
  | stop s hnone =>
    rw [statements_of_none hnone] at h
    exact absurd rfl h
  | next s o r hdef ih =>
    clear h
    obtain ⟨w, hs, hlast, hskip, hw⟩ := exists_front_of_next hdef
    rw [statements_of_some hdef]
    cases hnext : definition? r with
    | none =>
      rw [statements_of_none hnext]
      refine ⟨w, hs, hlast, hskip, fun z hz => ?_⟩
      have hblank : isBlankText (skipBlank z) = true := by rw [isBlankText_skipBlank, hz]
      rw [statements_of_some (hw z).1, statements_of_none (definition?_of_isBlankText hblank)]
      exact ⟨rfl, (hw z).2⟩
    | some x =>
      have hne : (statements r).1 ≠ [] := by
        rw [statements_of_some hnext]
        exact nofun
      obtain ⟨u, hu, hulast, hrest, hall⟩ := ih hne
      refine ⟨w ++ u, ?_, getLast?_append_ne hlast hulast, hrest, fun z hz => ?_⟩
      · rw [List.append_assoc, ← hu, hs]
      · obtain ⟨hsame, hskip'⟩ := hall z hz
        rw [List.append_assoc, statements_of_some (hw (u ++ z)).1, hskip' hskip, hsame]
        exact ⟨rfl, (hw (u ++ z)).2⟩

/-! ## Places in the text before its wildcards are filled -/

theorem getLast?_ne_of_cons {c d : Char} (h : (c :: s).getLast? ≠ some d) :
    s.getLast? ≠ some d := by
  cases s with
  | nil => exact nofun
  | cons e s => simpa using h

/-- **A filled text is cut where the text itself is**, unless a wildcard stands across. -/
theorem exists_of_fillWildcards (h : fillWildcards s = u ++ r) (hu : u.getLast? ≠ some '=') :
    ∃ a b, s = a ++ b ∧ fillWildcards a = u ∧ fillWildcards b = r := by
  fun_induction fillWildcards s generalizing u with
  | case1 s ih =>
    rcases u with - | ⟨c, - | ⟨d, u⟩⟩
    · exact ⟨[], '=' :: '*' :: s, rfl, rfl, h⟩
    · cases h
      exact absurd rfl hu
    · have hparts : '=' :: 'A' :: fillWildcards s = c :: d :: (u ++ r) := h
      simp only [List.cons.injEq] at hparts
      obtain ⟨rfl, rfl, hrest⟩ := hparts
      obtain ⟨a, b, rfl, rfl, hb⟩ :=
        ih hrest (getLast?_ne_of_cons (getLast?_ne_of_cons hu))
      exact ⟨'=' :: '*' :: a, b, rfl, rfl, hb⟩
  | case2 c s hstop ih =>
    rcases u with - | ⟨d, u⟩
    · refine ⟨[], c :: s, rfl, rfl, ?_⟩
      rw [fillWildcards_cons]
      · exact h
      · rintro rfl hhead
        obtain ⟨s', rfl⟩ := List.head?_eq_some_iff.1 hhead
        exact hstop s' rfl rfl
    · obtain ⟨rfl, hrest⟩ := List.cons.inj h
      obtain ⟨a, b, rfl, rfl, hb⟩ := ih hrest (getLast?_ne_of_cons hu)
      refine ⟨c :: a, b, rfl, fillWildcards_cons ?_, hb⟩
      rintro rfl hhead
      obtain ⟨a', rfl⟩ := List.head?_eq_some_iff.1 hhead
      exact hstop (a' ++ b) rfl rfl
  | case3 =>
    obtain ⟨rfl, rfl⟩ := List.append_eq_nil_iff.1 h.symm
    exact ⟨[], [], rfl, rfl, rfl⟩

theorem after_fillWildcards (s : List Char) :
    Position.after (fillWildcards s) = Position.after s := by
  unfold Position.after
  generalize Position.start = p
  fun_induction fillWildcards s generalizing p with
  | case1 s ih => exact ih _
  | case2 c s hstop ih => exact ih _
  | case3 => rfl

theorem eq_of_fillWildcards (h : fillWildcards s = u) (hu : ∀ c ∈ u, isBlank c = true) :
    s = u := by
  fun_induction fillWildcards s generalizing u with
  | case1 s ih =>
    subst h
    exact absurd (hu '=' List.mem_cons_self) (by decide)
  | case2 c s hstop ih =>
    subst h
    exact congrArg (c :: ·) (ih rfl fun d hd => hu d (List.mem_cons_of_mem c hd))
  | case3 => exact h

/-! ## What is left is refused -/

theorem definition?_left (s : List Char) : definition? (statements s).2 = none := by
  induction s using statements_cases with
  | stop s hnone => rw [statements_of_none hnone, hnone]
  | next s o r hdef ih => rw [statements_of_some hdef, ih]

theorem parseChars_eq_error_iff {e : SyntaxError} :
    parseChars s = .error e ↔
      isBlankText (statements s).2 = false ∧
        SyntaxError.ofRest s (trimStart (statements s).2) = e := by
  unfold parseChars
  rw [readDefinitions_eq]
  dsimp only
  split
  · next h => simp [h]
  · next h => simp [h]

theorem isBlankText_of_forall (h : ∀ c ∈ s, isBlank c = true) : isBlankText s = true := by
  induction s with
  | nil => exact isBlankText_nil
  | cons c s ih =>
    have hc : c ≠ '/' := by
      rintro rfl
      exact absurd (h '/' List.mem_cons_self) (by decide)
    rw [isBlankText_cons s hc, h c List.mem_cons_self,
      ih fun d hd => h d (List.mem_cons_of_mem c hd)]
    rfl

theorem fillWildcards_blanks_append (h : ∀ c ∈ s, isBlank c = true) (t : List Char) :
    fillWildcards (s ++ t) = s ++ fillWildcards t := by
  induction s with
  | nil => rfl
  | cons c s ih =>
    have hc : c ≠ '=' := by
      rintro rfl
      exact absurd (h '=' List.mem_cons_self) (by decide)
    rw [List.cons_append, fillWildcards_of_ne hc, ih fun d hd => h d (List.mem_cons_of_mem c hd)]
    rfl

/-- The four characters that the grammar skips have no part in a definition. -/
theorem definition?_spaces_append (h : ∀ c ∈ s, isSpace c = true) (t : List Char) :
    definition? (s ++ t) = definition? t := by
  refine definition?_congr ?_ (afterDoc?_of_forall h t)
  induction s with
  | nil => rfl
  | cons c s ih =>
    rw [List.cons_append, skipBlank_of_space (h c List.mem_cons_self)]
    exact ih fun d hd => h d (List.mem_cons_of_mem c hd)

/-- A comment starts here: a line comment of any kind, or a block comment that is closed. -/
def startsComment : List Char → Bool
  | '/' :: '/' :: _ => true
  | '/' :: '*' :: s => (afterBlock? s).isSome
  | _ => false

/-- A comment that is neither skipped nor left over is a line of documentation. -/
theorem doc_of_startsComment (hs : startsComment s = true) (hskip : afterComment? s = none)
    (hleft : isBlankText (fillWildcards s) = false) : ['/', '/', '/'] <+: s := by
  fun_cases startsComment s with
  | case1 t =>
    by_cases ht : t.head? = some '/'
    · obtain ⟨t', rfl⟩ := List.head?_eq_some_iff.1 ht
      exact ⟨t', rfl⟩
    · rw [afterComment?_line ht] at hskip
      rw [fillWildcards_of_ne (by decide), fillWildcards_of_ne (by decide), isBlankText_line,
        afterLine_fillWildcards, afterLine, hskip] at hleft
      have hnil : isBlankText [] = false := hleft
      rw [isBlankText_nil] at hnil
      cases hnil
  | case2 t =>
    rw [afterComment?_block] at hskip
    rw [startsComment, hskip] at hs
    cases hs
  | case3 t h1 h2 =>
    rw [startsComment] at hs
    · cases hs
    all_goals assumption

/-- A text is what has been read, and what is left. -/
theorem exists_front (s : List Char) :
    ∃ u, s = u ++ (statements s).2 ∧ u.getLast? ≠ some '=' ∧
      (u = [] ∨ skipBlank (statements s).2 = (statements s).2) ∧
      ∀ z, isBlankText z = true → (statements (u ++ z)).1 = (statements s).1 ∧
        isBlankText (statements (u ++ z)).2 = true := by
  cases hdef : definition? s with
  | none =>
    rw [statements_of_none hdef]
    refine ⟨[], rfl, nofun, .inl rfl, fun z hz => ?_⟩
    rw [List.nil_append, statements_of_none (definition?_of_isBlankText hz)]
    exact ⟨rfl, hz⟩
  | some x =>
    have hne : (statements s).1 ≠ [] := by
      rw [statements_of_some hdef]
      exact nofun
    obtain ⟨u, hu, hlast, hskip, hread⟩ := exists_front_of_statements s hne
    refine ⟨u, hu, hlast, .inr hskip, fun z hz => ?_⟩
    rw [(hread z hz).1, isBlankText_skipBlank]
    exact ⟨rfl, hz⟩

/-- A text in three parts, of which the first one is filled as what has been read, and the others
as what is left: the blanks that this starts with, and what stands behind them. -/
structure IsCut (s u left before blanks rest : List Char) : Prop where
  text : s = before ++ (blanks ++ rest)
  before : fillWildcards before = u
  isBlank : ∀ c ∈ blanks, isBlank c = true
  rest : fillWildcards rest = trimStart left
  left : blanks ++ trimStart left = left

/-- A text whose filled form is cut in two is cut at the same place, and behind the blanks there. -/
theorem exists_isCut (h : fillWildcards s = u ++ r) (hu : u.getLast? ≠ some '=') :
    ∃ before blanks rest, IsCut s u r before blanks rest := by
  have hblank : ∀ c ∈ r.takeWhile isBlank, isBlank c = true :=
    List.all_eq_true.1 List.all_takeWhile
  have hcut : r.takeWhile isBlank ++ trimStart r = r := List.takeWhile_append_dropWhile
  have hlast : (u ++ r.takeWhile isBlank).getLast? ≠ some '=' := by
    refine getLast?_append_ne hu fun he => ?_
    exact absurd (hblank '=' (List.mem_of_getLast? he)) (by decide)
  rw [← hcut, ← List.append_assoc] at h
  obtain ⟨front, rest, rfl, hfront, hrest⟩ := exists_of_fillWildcards h hlast
  obtain ⟨before, blanks, rfl, hbefore, hblanks⟩ := exists_of_fillWildcards hfront hu
  obtain rfl := eq_of_fillWildcards hblanks hblank
  exact ⟨before, _, rest, List.append_assoc _ _ _, hbefore, hblank, hrest, hcut⟩

namespace IsCut

variable {left before blanks rest : List Char} (h : IsCut s u left before blanks rest)

include h

theorem fillWildcards_left : fillWildcards (blanks ++ rest) = left := by
  rw [fillWildcards_blanks_append h.isBlank, h.rest, h.left]

theorem fillWildcards_front : fillWildcards (before ++ blanks) = u ++ blanks := by
  have hstar : blanks.head? ≠ some '*' := fun he =>
    absurd (h.isBlank '*' (List.mem_of_head? he)) (by decide)
  have hsame : fillWildcards blanks = blanks := by
    simpa [fillWildcards] using fillWildcards_blanks_append h.isBlank []
  rw [fillWildcards_append hstar, h.before, hsame]

/-- What is left starts with something but blanks, if it is no blank text. -/
theorem exists_start (hleft : isBlankText left = false) :
    ∃ c r, rest = c :: r ∧ Text.isBlank c = false := by
  cases htrim : trimStart left with
  | nil =>
    have hcut := h.left
    rw [htrim, List.append_nil] at hcut
    rw [← hcut, isBlankText_of_forall h.isBlank] at hleft
    cases hleft
  | cons c r =>
    have hhead := head?_fillWildcards rest
    rw [h.rest, htrim] at hhead
    obtain ⟨r', rfl⟩ := List.head?_eq_some_iff.1 hhead.symm
    exact ⟨c, r', rfl, isBlank_of_trimStart htrim⟩

/-- What stands behind the blanks is found at the place where the filled text is cut. -/
theorem position (hs : fillWildcards s = u ++ left) :
    (SyntaxError.ofRest (fillWildcards s) (trimStart left)).position =
      ⟨1 + (before ++ blanks).count '\n',
        1 + ((before ++ blanks).reverse.takeWhile (· ≠ '\n')).length⟩ := by
  have hsplit : fillWildcards s = u ++ blanks ++ trimStart left := by
    rw [List.append_assoc, h.left, hs]
  rw [← Position.after_eq, ← after_fillWildcards (before ++ blanks), h.fillWildcards_front]
  show Position.after (List.take _ _) = _
  rw [hsplit, List.length_append, Nat.add_sub_cancel, List.take_left]

end IsCut

/-- Where the grammar has skipped its blanks, a comment that is still there is documentation, or
stands behind a blank of another kind. -/
theorem doc_or_blank_of_startsComment {b : List Char} (hb : ∀ c ∈ b, isBlank c = true)
    (hskip : skipBlank (fillWildcards (b ++ t)) = fillWildcards (b ++ t))
    (hleft : isBlankText (fillWildcards (b ++ t)) = false) (hclose : ClosesNone t)
    (hcomment : startsComment t = true) :
    ['/', '/', '/'] <+: t ∨ ∃ c ∈ b, isSpace c = false := by
  rw [fillWildcards_blanks_append hb] at hskip hleft
  cases b with
  | nil =>
    left
    have hfilled := afterComment?_of_skipBlank hskip
    rw [List.nil_append, afterComment?_fillWildcards hclose] at hfilled
    exact doc_of_startsComment hcomment (Option.map_eq_none_iff.1 hfilled) hleft
  | cons c b => exact .inr ⟨c, List.mem_cons_self, isSpace_of_skipBlank hskip⟩

/-! ## The place of an error -/

/-- A text that is refused, in three parts: the definitions that have been read with what the
grammar skips behind them, blanks, and the text at the place of the error. -/
structure Refused (source : String) (before blanks rest : List Char) : Prop where
  text : source.toList = before ++ (blanks ++ rest)
  /-- The text in front of the place is accepted, and gives the definitions that were read. -/
  accepted : parse (String.ofList (before ++ blanks)) =
    .ok (readDefinitions (fillWildcards source.toList)).1
  /-- No further definition can be read. -/
  refused : definition? (fillWildcards (blanks ++ rest)) = none
  isBlank : ∀ c ∈ blanks, isBlank c = true
  /-- There is something at the place, and it is no blank. -/
  start : ∃ c r, rest = c :: r ∧ Text.isBlank c = false

/-- **An error tells the place of the first definition that cannot be read.**  A comment starts at
this place only where nothing has been read before, where it is a line of documentation, behind a
blank that the grammar does not skip, or where a wildcard has taken away the end of the comment. -/
theorem exists_refused_of_error {source : String} {e : SyntaxError}
    (h : parse source = .error e) :
    ∃ before blanks rest, Refused source before blanks rest ∧
      e.excerpt = String.ofList (excerpt (fillWildcards rest)) ∧
      e.position = ⟨1 + (before ++ blanks).count '\n',
        1 + ((before ++ blanks).reverse.takeWhile (· ≠ '\n')).length⟩ ∧
      ((∀ c ∈ blanks, isSpace c = true) → definition? (fillWildcards rest) = none) ∧
      (startsComment rest = true → before = [] ∨ ['/', '/', '/'] <+: rest ∨
        (∃ c ∈ blanks, isSpace c = false) ∨ ¬ ClosesNone source.toList) := by
  obtain ⟨hleft, rfl⟩ := parseChars_eq_error_iff.1 h
  have hnone := definition?_left (fillWildcards source.toList)
  obtain ⟨u, hu, hlast, hskip, hread⟩ := exists_front (fillWildcards source.toList)
  generalize hl : (statements (fillWildcards source.toList)).2 = left at *
  obtain ⟨before, blanks, rest, hcut⟩ := exists_isCut hu hlast
  have hfill := hcut.fillWildcards_left
  refine ⟨before, blanks, rest, ⟨hcut.text, ?_, ?_, hcut.isBlank, hcut.exists_start hleft⟩, ?_,
    hcut.position hu, ?_, ?_⟩
  · obtain ⟨hsame, hend⟩ := hread blanks (isBlankText_of_forall hcut.isBlank)
    unfold parse
    rw [String.toList_ofList, hcut.fillWildcards_front]
    refine parseChars_eq_ok_iff.2 ⟨hend, ?_⟩
    rw [hsame]
    rfl
  · rw [hfill, hnone]
  · rw [hcut.rest]
    rfl
  · intro hspaces
    rw [fillWildcards_blanks_append hcut.isBlank] at hfill
    rw [← definition?_spaces_append hspaces, hfill, hnone]
  · intro hcomment
    rcases hskip with rfl | hskip
    · exact .inl (List.head?_eq_none_iff.1 (head?_fillWildcards before ▸ hcut.before ▸ rfl))
    by_cases hclose : ClosesNone source.toList
    · have hrestClose : ClosesNone rest :=
        hclose.of_suffix ⟨before ++ blanks, by rw [hcut.text, List.append_assoc]⟩
      rw [← hfill] at hskip hleft
      exact .inr ((doc_or_blank_of_startsComment hcut.isBlank hskip hleft hrestClose
        hcomment).imp_right .inl)
    · exact .inr (.inr (.inr hclose))

/-- Comments behind a definition are skipped, and so are blanks that the grammar does not know. -/
theorem exists_refused_of_error_small :
    parse "interface A \x7b\x7d; // a\n\u00a0interface" = .error ⟨"interface", ⟨2, 2⟩⟩ ∧
      ∃ before blanks rest,
        Refused "interface A \x7b\x7d; // a\n\u00a0interface" before blanks rest ∧
        (before ++ blanks).count '\n' = 1 := by
  have h : parse "interface A \x7b\x7d; // a\n\u00a0interface" =
      .error ⟨"interface", ⟨2, 2⟩⟩ := by decide +kernel
  obtain ⟨before, blanks, rest, hrefused, -, hposition, -⟩ := exists_refused_of_error h
  have hline : 2 = 1 + (before ++ blanks).count '\n' := congrArg Position.line hposition
  exact ⟨h, before, blanks, rest, hrefused, by omega⟩

/-- The place of an error is that of a comment, where the definition that cannot be read starts
in the line below: in front of the first definition, and as documentation of a later one. -/
theorem error_at_comment :
    (parse "// a\ninterface \x7b" = .error ⟨"// a", ⟨1, 1⟩⟩ ∧
      startsComment "// a\ninterface \x7b".toList = true ∧
      Position.after "// a\n".toList = ⟨2, 1⟩) ∧
    (parse "enum E \x7b \"a\" \x7d;\n/// b\ninterface \x7b" = .error ⟨"/// b", ⟨2, 1⟩⟩ ∧
      startsComment "/// b\ninterface \x7b".toList = true ∧
      Position.after "enum E \x7b \"a\" \x7d;\n/// b\n".toList = ⟨3, 1⟩) := by
  decide +kernel

end IdlDocs.Idl
