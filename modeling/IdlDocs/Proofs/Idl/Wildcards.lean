import IdlDocs.Proofs.Idl.Statements

/-!
# Filled wildcards

Before a text is read, every `=*` in it is replaced by `=A`, wherever it stands.  In a text that is
accepted as it is, the two characters can only stand in a comment or between quotes.  There are
two ways to be changed by this: the value of an enumeration, and a block comment of which the end
is taken away.

* `ClosesNone`: no wildcard stands at the end of a comment.
* `afterComment?_fillWildcards`, `skipBlank_fillWildcards`, `isBlankText_fillWildcards`: blanks stay
  as they are.
* `Alike.fillWildcards`: such a text and its filled form are alike.
* `parse_of_accepted`: **a text that is accepted as it is gives the same definitions**, up to the
  values of enumerations.
* `wildcards_filled_everywhere`: both ways to be changed.
-/

namespace IdlDocs.Idl

open Text Text.Parser

variable {s t r y : List Char} {c : Char}

/-! ## Parts of a text -/

theorem head?_ne_of_forall {d : Char} (h : ∀ s', s = d :: s' → False) : s.head? ≠ some d := by
  intro hs
  obtain ⟨s', hs'⟩ := List.head?_eq_some_iff.1 hs
  exact h s' hs'

theorem fillWildcards_cons (h : c = '=' → s.head? ≠ some '*') :
    fillWildcards (c :: s) = c :: fillWildcards s := by
  rw [fillWildcards]
  rintro s' rfl rfl
  exact h rfl rfl

theorem fillWildcards_of_ne (h : c ≠ '=') : fillWildcards (c :: s) = c :: fillWildcards s :=
  fillWildcards_cons fun hc => absurd hc h

theorem head?_fillWildcards (s : List Char) : (fillWildcards s).head? = s.head? := by
  fun_cases fillWildcards s <;> rfl

/-- Two parts of a text are filled one by one, unless a wildcard stands across. -/
theorem fillWildcards_append (h : t.head? ≠ some '*') (s : List Char) :
    fillWildcards (s ++ t) = fillWildcards s ++ fillWildcards t := by
  fun_induction fillWildcards s with
  | case1 s ih =>
    show '=' :: 'A' :: fillWildcards (s ++ t) = _
    rw [ih]
    rfl
  | case2 c s hstop ih =>
    rw [List.cons_append, fillWildcards_cons, ih]
    · rfl
    · rintro rfl hhead
      cases s with
      | nil => exact h hhead
      | cons d s =>
        cases hhead
        exact hstop s rfl rfl
  | case3 => rfl

theorem mem_of_mem_fillWildcards (h : c ∈ fillWildcards s) : c ∈ s ∨ c = 'A' := by
  fun_induction fillWildcards s with
  | case1 s ih =>
    simp only [List.mem_cons] at h ⊢
    rcases h with h | h | h
    · exact .inl (.inl h)
    · exact .inr h
    · rcases ih h with h | h
      · exact .inl (.inr (.inr h))
      · exact .inr h
  | case2 d s hstop ih =>
    simp only [List.mem_cons] at h ⊢
    rcases h with h | h
    · exact .inl (.inl h)
    · rcases ih h with h | h
      · exact .inl (.inr h)
      · exact .inr h
  | case3 => exact .inl h

theorem fillWildcards_eq_self (h : ¬ ['=', '*'] <:+: s) : fillWildcards s = s := by
  fun_induction fillWildcards s with
  | case1 s ih => exact absurd ⟨[], s, rfl⟩ h
  | case2 c s hstop ih => rw [ih fun hs => h (hs.trans (List.suffix_cons c s).isInfix)]
  | case3 => rfl

/-- No wildcard stands in front of a slash, where its star could close a comment. -/
def ClosesNone (s : List Char) : Prop := ¬ ['=', '*', '/'] <:+: s

theorem ClosesNone.of_suffix (h : ClosesNone s) (ht : t <:+ s) : ClosesNone t :=
  fun hpart => h (hpart.trans ht.isInfix)

theorem ClosesNone.tail (h : ClosesNone (c :: s)) : ClosesNone s :=
  h.of_suffix (List.suffix_cons c s)

/-! ## Blanks -/

theorem afterLine?_fillWildcards (s : List Char) :
    afterLine? (fillWildcards s) = (afterLine? s).map fillWildcards := by
  fun_induction fillWildcards s with
  | case1 s ih => exact ih
  | case2 c s hstop ih =>
    by_cases hc : c = '\n'
    · simp [afterLine?, hc]
    · simp [afterLine?, hc, ih]
  | case3 => rfl

theorem afterBlock?_of_ne (h : c ≠ '*') : afterBlock? (c :: s) = afterBlock? s :=
  afterBlock?_cons fun hc => absurd hc h

theorem afterBlock?_fillWildcards (h : ClosesNone s) :
    afterBlock? (fillWildcards s) = (afterBlock? s).map fillWildcards := by
  fun_induction fillWildcards s with
  | case1 s ih =>
    have hslash : s.head? ≠ some '/' := by
      intro hs
      obtain ⟨s', rfl⟩ := List.head?_eq_some_iff.1 hs
      exact h ⟨[], s', rfl⟩
    rw [afterBlock?_of_ne (by decide), afterBlock?_of_ne (by decide), ih h.tail.tail,
      afterBlock?_of_ne (by decide), afterBlock?_cons fun _ => hslash]
  | case2 c s hstop ih =>
    by_cases hend : c = '*' ∧ s.head? = some '/'
    · obtain ⟨rfl, hs⟩ := hend
      obtain ⟨s', rfl⟩ := List.head?_eq_some_iff.1 hs
      rw [fillWildcards_of_ne (by decide)]
      rfl
    · have hs : c = '*' → s.head? ≠ some '/' := fun hc hs => hend ⟨hc, hs⟩
      rw [afterBlock?_cons hs, afterBlock?_cons (by rwa [head?_fillWildcards]), ih h.tail]
  | case3 => rfl

theorem afterComment?_of_head (h : s.head? ≠ some '/') (h' : s.head? ≠ some '*') :
    afterComment? ('/' :: s) = none := by
  cases hs : afterComment? ('/' :: s) with
  | none => rfl
  | some r =>
    rcases afterComment?_cases hs with ⟨t, ht, -⟩ | ⟨t, ht, -⟩
    · cases ht; exact absurd rfl h
    · cases ht; exact absurd rfl h'

/-- **A comment ends where it did.** -/
theorem afterComment?_fillWildcards (h : ClosesNone s) :
    afterComment? (fillWildcards s) = (afterComment? s).map fillWildcards := by
  fun_cases afterComment? s with
  | case1 s =>
    rw [fillWildcards_of_ne (by decide), fillWildcards_of_ne (by decide),
      fillWildcards_of_ne (by decide)]
    rfl
  | case2 s hs =>
    have hhead : (fillWildcards s).head? ≠ some '/' := by
      rw [head?_fillWildcards]
      exact head?_ne_of_forall hs
    rw [fillWildcards_of_ne (by decide), fillWildcards_of_ne (by decide), afterComment?_line hhead]
    exact afterLine?_fillWildcards s
  | case3 s =>
    rw [fillWildcards_of_ne (by decide), fillWildcards_of_ne (by decide)]
    exact afterBlock?_fillWildcards h.tail.tail
  | case4 s h1 h2 h3 =>
    cases s with
    | nil => rfl
    | cons c s =>
      by_cases hc : c = '/'
      · subst hc
        have hslash : s.head? ≠ some '/' := head?_ne_of_forall fun s' hs => h2 s' (by rw [hs])
        have hstar : s.head? ≠ some '*' := head?_ne_of_forall fun s' hs => h3 s' (by rw [hs])
        rw [← head?_fillWildcards] at hslash hstar
        rw [fillWildcards_of_ne (by decide), afterComment?_of_head hslash hstar]
        rfl
      · have hhead := head?_fillWildcards (c :: s)
        obtain ⟨s', hs'⟩ := List.head?_eq_some_iff.1 hhead
        rw [hs', afterComment?_of_ne hc]
        rfl

theorem skipBlank_fillWildcards : ClosesNone s →
    skipBlank (fillWildcards s) = fillWildcards (skipBlank s) := by
  induction s using skipBlank_cases with
  | comment s r hr ih =>
    intro h
    obtain ⟨b, hb, -⟩ := exists_of_afterComment? hr
    have hfill : afterComment? (fillWildcards s) = some (fillWildcards r) := by
      rw [afterComment?_fillWildcards h, hr]
      rfl
    rw [skipBlank_of_comment hfill, skipBlank_of_comment hr, ih (h.of_suffix ⟨b, hb.symm⟩)]
  | space c s hc ih =>
    intro h
    rw [fillWildcards_of_ne (by rintro rfl; exact absurd hc (by decide)), skipBlank_of_space hc,
      skipBlank_of_space hc, ih h.tail]
  | stop s hs =>
    intro h
    rw [hs]
    cases s with
    | nil => exact skipBlank_nil
    | cons c s =>
      have hnone : afterComment? (fillWildcards (c :: s)) = none := by
        rw [afterComment?_fillWildcards h, afterComment?_of_skipBlank hs]
        rfl
      obtain ⟨s', hs'⟩ := List.head?_eq_some_iff.1 (head?_fillWildcards (c :: s))
      rw [hs'] at hnone ⊢
      exact skipBlank_of_stop hnone (isSpace_of_skipBlank hs)

theorem afterLine_fillWildcards (s : List Char) :
    afterLine (fillWildcards s) = fillWildcards (afterLine s) := by
  unfold afterLine
  rw [afterLine?_fillWildcards]
  cases afterLine? s <;> rfl

theorem isBlankText_fillWildcards (h : ClosesNone s) (hs : isBlankText s = true) :
    isBlankText (fillWildcards s) = true := by
  fun_induction isBlankText s with
  | case1 s ih =>
    have hsuffix : afterLine s <:+ '/' :: '/' :: s := by
      unfold afterLine
      cases hr : afterLine? s with
      | none => exact List.nil_suffix
      | some r =>
        obtain ⟨b, rfl, -⟩ := exists_of_afterLine? hr
        exact ⟨'/' :: '/' :: b, rfl⟩
    rw [fillWildcards_of_ne (by decide), fillWildcards_of_ne (by decide), isBlankText_line,
      afterLine_fillWildcards]
    exact ih (h.of_suffix hsuffix) hs
  | case2 s r hr ih =>
    obtain ⟨b, rfl, -⟩ := exists_of_afterBlock? hr
    rw [fillWildcards_of_ne (by decide), fillWildcards_of_ne (by decide), isBlankText_block,
      afterBlock?_fillWildcards h.tail.tail, hr]
    exact ih (h.of_suffix ⟨'/' :: '*' :: b, rfl⟩) hs
  | case3 s hnone => cases hs
  | case4 c s h1 h2 ih =>
    obtain ⟨hc, hs⟩ := Bool.and_eq_true_iff.1 hs
    rw [fillWildcards_of_ne (by rintro rfl; exact absurd hc (by decide)),
      isBlankText_cons _ (by rintro rfl; exact absurd hc (by decide)), hc, ih h.tail hs]
    rfl
  | case5 => exact isBlankText_nil

/-- A quote is no part of a wildcard, so that the quoted text ends where it did. -/
theorem afterQuote?_fillWildcards {q : List Char} (h : afterQuote? s = some (q, r)) :
    afterQuote? (fillWildcards s) = some (fillWildcards q, fillWildcards r) := by
  obtain ⟨rfl, hmem⟩ := afterQuote?_eq_some_iff.1 h
  rw [fillWildcards_append (by simp), fillWildcards_of_ne (by decide)]
  refine afterQuote?_eq_some_iff.2 ⟨rfl, fun hfill => ?_⟩
  rcases mem_of_mem_fillWildcards hfill with hq | hq
  · exact hmem hq
  · exact absurd hq (by decide)

/-! ## Definitions -/

def filled (text : String) : String := String.ofList (fillWildcards text.toList)

/-- No text that is read starts with a star. -/
theorem Alike.head?_ne {V : String → String → Prop} {y y' : List Char} {k : Nat}
    (h : Alike V y y' k s t) : s.head? ≠ some '*' := by
  cases h with
  | plain hc =>
    rintro hhead
    cases hhead
    exact absurd hc (by decide)
  | comment hs =>
    intro hhead
    obtain ⟨s', rfl⟩ := List.head?_eq_some_iff.1 hhead
    cases hs
  | _ => exact nofun

/-- **A text and its filled form are alike**, up to the wildcards between quotes. -/
theorem Alike.fillWildcards {y y' : List Char} {k : Nat} (h : Alike Eq y y' k s t) :
    ClosesNone s → Alike (fun text text' => text' = filled text) y (fillWildcards y) k s
      (fillWildcards s) := by
  induction h with
  | done =>
    intro _
    rw [fillWildcards_of_ne (by decide)]
    exact .done
  | plain hc h ih =>
    intro hs
    rw [fillWildcards_cons fun _ => h.head?_ne]
    exact .plain hc (ih hs.tail)
  | semicolon h ih =>
    intro hs
    rw [fillWildcards_of_ne (by decide)]
    exact .semicolon (ih hs.tail)
  | openBrace h ih =>
    intro hs
    rw [fillWildcards_of_ne (by decide)]
    exact .openBrace (ih hs.tail)
  | closeBrace h ih =>
    intro hs
    rw [fillWildcards_of_ne (by decide)]
    exact .closeBrace (ih hs.tail)
  | @quoted k s t q q' s' t' hs ht hq h ih =>
    intro hclose
    have hfill := afterQuote?_fillWildcards hs
    obtain ⟨rfl, -⟩ := afterQuote?_eq_some_iff.1 hs
    rw [fillWildcards_of_ne (by decide)]
    refine .quoted hs hfill ?_ (ih (hclose.of_suffix ⟨'"' :: (q ++ ['"']), by simp⟩))
    simp [filled]
  | @doc k s t s' t' hs ht h ih =>
    intro hclose
    obtain ⟨b, rfl, -⟩ := exists_of_afterLine? hs
    rw [fillWildcards_of_ne (by decide), fillWildcards_of_ne (by decide),
      fillWildcards_of_ne (by decide)]
    refine .doc hs ?_ (ih (hclose.of_suffix ⟨'/' :: '/' :: '/' :: b, rfl⟩))
    rw [afterLine?_fillWildcards, hs]
    rfl
  | comment hs ht h ih =>
    intro hclose
    obtain ⟨b, rfl, -⟩ := exists_of_afterComment? hs
    refine .comment hs ?_ (ih (hclose.of_suffix (List.suffix_append b _)))
    rw [afterComment?_fillWildcards hclose, hs]
    rfl

/-- The definition with the wildcards filled in the values of an enumeration. -/
def Definition.filled : Definition → Definition
  | .enumeration e => .enumeration { e with values := e.values.map Idl.filled }
  | d => d

theorem Definition.Like.eq_filled {d d' : Definition}
    (h : Definition.Like (fun text text' => text' = Idl.filled text) d d') : d' = d.filled := by
  cases h with
  | same d hd =>
    unfold Definition.filled
    split
    · exact absurd rfl (hd _)
    · rfl
  | @enumeration name values values' h =>
    have hvalues : values' = values.map Idl.filled := by
      induction h with
      | nil => rfl
      | cons hv _ ih => rw [hv, ih]; rfl
    rw [hvalues]
    rfl

/-- By induction on the definitions of the text. -/
theorem statements_fillWildcards : ClosesNone s → isBlankText (statements s).2 = true →
    (statements (fillWildcards s)).1 = (statements s).1.map (Option.map Definition.filled) ∧
      isBlankText (statements (fillWildcards s)).2 = true := by
  induction s using statements_cases with
  | stop s hnone =>
    intro h hblank
    rw [statements_of_none hnone] at hblank ⊢
    have hfilled := isBlankText_fillWildcards h hblank
    rw [statements_of_none (definition?_of_isBlankText hfilled)]
    exact ⟨rfl, hfilled⟩
  | next s o r hdef ih =>
    intro h hblank
    obtain ⟨y, hy, rfl⟩ := exists_alike_of_definition hdef
    obtain ⟨u, hu, -⟩ := hy.exists_front
    have hclose : ClosesNone y := h.of_suffix ⟨u ++ [';'], by simp [hu]⟩
    obtain ⟨o', hfill, hlike⟩ := (hy.fillWildcards h).definition? hdef
    have ho : o' = o.map Definition.filled := by
      cases hlike with
      | none => rfl
      | some hd => rw [hd.eq_filled]; rfl
    rw [statements_of_some hdef] at hblank ⊢
    rw [statements_of_some hfill, skipBlank_fillWildcards hclose]
    obtain ⟨hrest, hend⟩ := ih (hclose.of_suffix (skipBlank_suffix y)) hblank
    rw [ho, hrest]
    exact ⟨rfl, hend⟩

theorem parseChars_eq_ok_iff {ds : List Definition} :
    parseChars s = .ok ds ↔
      isBlankText (statements s).2 = true ∧ (statements s).1.filterMap id = ds := by
  unfold parseChars
  rw [readDefinitions_eq]
  dsimp only
  split
  · next h => simp [h]
  · next h => simp [h]

/-- A text that is read, and something of its definitions. -/
theorem exists_parse {β : Type} {f : List Definition → β} {source : String} {b : β}
    (h : (parse source).toOption.map f = some b) : ∃ ds, parse source = .ok ds ∧ f ds = b := by
  cases hp : parse source with
  | error e => rw [hp] at h; cases h
  | ok ds => rw [hp] at h; exact ⟨ds, rfl, Option.some.inj h⟩

/-- The definitions of a text that is accepted as it is, after its wildcards are filled. -/
theorem parse_of_parseChars {source : String} {ds : List Definition}
    (h : parseChars source.toList = .ok ds) (hclose : ClosesNone source.toList) :
    parse source = .ok (ds.map Definition.filled) := by
  obtain ⟨hblank, rfl⟩ := parseChars_eq_ok_iff.1 h
  obtain ⟨hfill, hend⟩ := statements_fillWildcards hclose hblank
  refine parseChars_eq_ok_iff.2 ⟨hend, ?_⟩
  rw [hfill, List.filterMap_map, List.map_filterMap]
  rfl

theorem Definition.filled_eq {d : Definition}
    (h : ∀ e, d = .enumeration e → ∀ v ∈ e.values, ¬ ['=', '*'] <:+: v.toList) : d.filled = d := by
  unfold Definition.filled
  split
  · next e =>
    have hvalues : e.values.map Idl.filled = e.values := by
      refine (List.map_congr_left fun v hv => ?_).trans (List.map_id e.values)
      unfold Idl.filled
      rw [fillWildcards_eq_self (h e rfl v hv), String.ofList_toList, id]
    rw [hvalues]
  · rfl

/-- **A text that is accepted as it is gives the same definitions when its wildcards are filled**,
up to the wildcards in the values of enumerations, if no wildcard stands at the end of a
comment. -/
theorem parse_of_accepted {source : String} {ds : List Definition}
    (h : parseChars source.toList = .ok ds) (hclose : ¬ "=*/".toList <:+: source.toList) :
    parse source = .ok (ds.map Definition.filled) ∧
      ((∀ e, .enumeration e ∈ ds → ∀ v ∈ e.values, ¬ "=*".toList <:+: v.toList) →
        parse source = .ok ds) := by
  have hfilled := parse_of_parseChars h hclose
  refine ⟨hfilled, fun hvalues => ?_⟩
  have hsame : ds.map Definition.filled = ds := by
    refine (List.map_congr_left fun d hd => ?_).trans (List.map_id ds)
    exact Definition.filled_eq fun e he => hvalues e (he ▸ hd)
  rw [hfilled, hsame]

def isEnumeration (name : String) (values : List String) :
    Except SyntaxError (List Definition) → Bool
  | .ok [.enumeration e] => e.name == name && e.values == values
  | _ => false

theorem eq_of_isEnumeration {name : String} {values : List String}
    {result : Except SyntaxError (List Definition)} (h : isEnumeration name values result = true) :
    result = .ok [.enumeration ⟨name, values⟩] := by
  unfold isEnumeration at h
  split at h
  · next e =>
    obtain ⟨hname, hvalues⟩ := Bool.and_eq_true_iff.1 h
    rw [← eq_of_beq hname, ← eq_of_beq hvalues]
  · cases h

/-- A wildcard in a comment changes nothing, unless it stands at its end. -/
theorem parse_comment_with_wildcard :
    parseChars "/* x=* */ enum E \x7b \"a\" \x7d;".toList = .ok [.enumeration ⟨"E", ["a"]⟩] ∧
      parse "/* x=* */ enum E \x7b \"a\" \x7d;" = .ok [.enumeration ⟨"E", ["a"]⟩] := by
  have h : parseChars "/* x=* */ enum E \x7b \"a\" \x7d;".toList =
      .ok [.enumeration ⟨"E", ["a"]⟩] := eq_of_isEnumeration (by decide +kernel)
  refine ⟨h, (parse_of_accepted h (by decide +kernel)).2 fun e he v hv => ?_⟩
  cases List.mem_singleton.1 he
  cases List.mem_singleton.1 hv
  decide

/-- The text of a value is replaced as well, and a block comment may lose its end: the first of two
enumerations is lost here. -/
theorem wildcards_filled_everywhere :
    (parseChars "enum E \x7b \"=*\" \x7d;".toList = .ok [.enumeration ⟨"E", ["=*"]⟩] ∧
      parse "enum E \x7b \"=*\" \x7d;" = .ok [.enumeration ⟨"E", ["=A"]⟩]) ∧
    ((parseChars
        "/* x=*/ enum D \x7b \"a\" \x7d; /* y */ enum E \x7b \"b\" \x7d;".toList).toOption.map
        List.length = some 2 ∧
      parse "/* x=*/ enum D \x7b \"a\" \x7d; /* y */ enum E \x7b \"b\" \x7d;" =
        .ok [.enumeration ⟨"E", ["b"]⟩]) :=
  ⟨⟨eq_of_isEnumeration (by decide +kernel), eq_of_isEnumeration (by decide +kernel)⟩,
    by decide +kernel, eq_of_isEnumeration (by decide +kernel)⟩

end IdlDocs.Idl
