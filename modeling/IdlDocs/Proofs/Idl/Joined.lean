import IdlDocs.Proofs.Idl.Wildcards
import IdlDocs.Registry.Document

/-!
# Source texts that are joined

The source text of a document is made of several texts with line breaks between them.  What may
stand at the end of a text is more than what may stand between two definitions: documentation
that no definition follows, for one, and most blanks of Unicode.

* `definition?_congr`, `definition?_skipBlank`: how a definition depends on what stands in front of
  it.
* `Joins`: what is left of a text can be skipped in front of another one.
* `statements_append`: **the definitions of two texts that are joined.**
* `parse_combined`: **the combined text of a document gives the definitions of all its texts.**
* `combined_not_parsed`: a document of which the texts cannot be joined.
-/

namespace IdlDocs.Idl

open Text Text.Parser

variable {s t r : List Char} {o : Option Definition}

/-! ## How a definition starts -/

/-- A definition depends on the text after the blanks, and on whether documentation comes first. -/
theorem definition?_congr (hblank : skipBlank s = skipBlank t) (hdoc : afterDoc? s = afterDoc? t) :
    definition? s = definition? t := by
  have htokens := tokensInStep_of_same
    (R := fun s t => skipBlank s = skipBlank t ∧ afterDoc? s = afterDoc? t)
    (fun _ _ => id) fun _ _ _ _ _ => ⟨rfl, rfl⟩
  rw [← definition_eq (Nat.le_max_left s.length t.length),
    ← definition_eq (Nat.le_max_right s.length t.length)]
  rcases htokens.definition (htokens.levelAt _) s t ⟨hblank, hdoc⟩ with
    ⟨hs, ht⟩ | ⟨o, r, o', r', hs, ht, hlike, rfl, -⟩
  · rw [hs, ht]
  · rw [hs, ht, eq_of_like hlike]

theorem tokensInStep_slash :
    TokensInStep (fun _ s t => s = t ∧ (skipBlank s).head? = some '/' ∧ afterDoc? s = none)
      (fun _ _ => False) Eq := by
  have hnone {S : List Char → List Char → Prop} {α : Type} {p : Parser α}
      (hp : ∀ r, p ('/' :: r) = none) :
      InStep (fun s t => s = t ∧ (skipBlank s).head? = some '/' ∧ afterDoc? s = none) S Eq
        (token p) (token p) := by
    rintro s t ⟨rfl, hs, -⟩
    obtain ⟨r, hr⟩ := List.head?_eq_some_iff.1 hs
    have : token p s = none := by rw [token_apply, hr, hp]; rfl
    exact .inl ⟨this, this⟩
  have hexactly {w : List Char} (hw : w ≠ [] ∧ w.all isPlain = true) (r : List Char) :
      exactly w ('/' :: r) = none := by
    obtain ⟨c, w', rfl⟩ := List.exists_cons_of_ne_nil hw.1
    have hc : c ≠ '/' := by
      rintro rfl
      exact absurd (List.all_eq_true.1 hw.2 '/' List.mem_cons_self) (by decide)
    simp [exactly, dropLead?, hc]
  exact {
    mark := fun _ m hm => hnone (hexactly hm)
    keyword := fun _ w hw => hnone fun r => by rw [seqRight_eq_bind, bind_apply, hexactly hw]; rfl
    identifier := fun _ => hnone fun r => rfl
    quotedText := fun _ => hnone fun r => rfl
    decimal := fun _ => hnone fun r => rfl
    integer := fun _ => hnone fun r => rfl
    docLine := by
      rintro k s t ⟨rfl, -, hs⟩
      have : docLine s = none := by rw [docLine_apply, hs]; rfl
      exact .inl ⟨this, this⟩
    openBrace := fun _ => hnone fun r => rfl
    closeBrace := fun _ => hnone fun r => rfl
    semicolon := fun _ => hnone fun r => rfl
    last := hnone fun r => rfl }

theorem definition?_of_slash (hs : (skipBlank s).head? = some '/') (hdoc : afterDoc? s = none) :
    definition? s = none := by
  rcases tokensInStep_slash.definition (tokensInStep_slash.levelAt s.length) s s
    ⟨rfl, hs, hdoc⟩ with ⟨hnone, -⟩ | ⟨_, _, _, _, -, -, -, hfalse, -⟩
  · exact hnone
  · exact hfalse.elim

/-- **The blanks in front of a definition can be skipped.** -/
theorem definition?_skipBlank (h : definition? s = some (o, r)) :
    definition? (skipBlank s) = some (o, r) := by
  cases hs : afterDoc? s with
  | some r' =>
    obtain ⟨t, ht, hr⟩ := exists_of_afterDoc? hs
    have hskip : afterDoc? (skipBlank s) = some r' := by rw [ht, afterDoc?_slashes, hr]
    exact (definition?_congr (skipBlank_skipBlank s) (hskip.trans hs.symm)).trans h
  | none =>
    cases hskip : afterDoc? (skipBlank s) with
    | none => exact (definition?_congr (skipBlank_skipBlank s) (hskip.trans hs.symm)).trans h
    | some r' =>
      -- Documentation behind a comment belongs to no definition.
      obtain ⟨t, ht, -⟩ := exists_of_afterDoc? hskip
      rw [skipBlank_skipBlank] at ht
      rw [definition?_of_slash (by rw [ht]; rfl) hs] at h
      cases h

/-! ## Two texts -/

/-- What is left of the first text is skipped in front of the second one.  If nothing is read from
the first text, it must not come between documentation and its definition. -/
def Joins (s t : List Char) : Prop :=
  skipBlank ((readDefinitions s).2 ++ ['\n']) = [] ∧
    ((readDefinitions s).2 = s →
      (∀ c ∈ s, isSpace c = true) ∨ ¬ ['/', '/', '/'] <+: skipBlank t)

instance (s t : List Char) : Decidable (Joins s t) := inferInstanceAs (Decidable (_ ∧ _))

theorem skipBlank_line_append (h : skipBlank (s ++ ['\n']) = []) (t : List Char) :
    skipBlank (s ++ '\n' :: t) = skipBlank t := by
  rw [List.append_cons, skipBlank_append_of_nil h]

/-- By induction on the definitions of the first text. -/
theorem statements_skipBlank_append (hs : skipBlank s = s)
    (h : skipBlank ((statements s).2 ++ ['\n']) = []) (t : List Char) :
    statements (skipBlank (s ++ '\n' :: t)) =
      ((statements s).1 ++ (statements (skipBlank t)).1, (statements (skipBlank t)).2) := by
  induction s using statements_cases with
  | stop s hnone =>
    rw [statements_of_none hnone] at h ⊢
    rw [skipBlank_line_append h]
    rfl
  | next s o r hdef ih =>
    rw [statements_of_some hdef] at h ⊢
    obtain ⟨u, y, rfl, rfl, hu⟩ := exists_front_of_definition hdef
    have hjoin : u ++ ';' :: y ++ '\n' :: t = u ++ ';' :: (y ++ '\n' :: t) := by simp
    obtain ⟨hfirst, hskip⟩ := hu (y ++ '\n' :: t)
    rw [hjoin, hskip hs, statements_of_some hfirst, ← skipBlank_append,
      ih (skipBlank_skipBlank y) h]
    rfl

theorem statements_skipBlank (h : isBlankText (statements s).2 = true) :
    (statements (skipBlank s)).1 = (statements s).1 ∧
      isBlankText (statements (skipBlank s)).2 = true := by
  cases hs : definition? s with
  | some x =>
    rw [statements_of_some hs] at h ⊢
    rw [statements_of_some (definition?_skipBlank hs)]
    exact ⟨rfl, h⟩
  | none =>
    rw [statements_of_none hs] at h ⊢
    have hblank : isBlankText (skipBlank s) = true := by rw [isBlankText_skipBlank, h]
    rw [statements_of_none (definition?_of_isBlankText hblank)]
    exact ⟨rfl, hblank⟩

theorem afterDoc?_of_forall {w : List Char} (hw : ∀ c ∈ w, isSpace c = true) (t : List Char) :
    afterDoc? (w ++ t) = afterDoc? t := by
  induction w with
  | nil => rfl
  | cons c w ih =>
    rw [List.cons_append, afterDoc?_of_space (hw c List.mem_cons_self),
      ih fun d hd => hw d (List.mem_cons_of_mem c hd)]

theorem afterDoc?_eq_none (h : ¬ ['/', '/', '/'] <+: skipBlank s) : afterDoc? s = none := by
  cases hs : afterDoc? s with
  | none => rfl
  | some r =>
    obtain ⟨t, ht, -⟩ := exists_of_afterDoc? hs
    exact absurd ⟨t, ht.symm⟩ h

/-- **The definitions of two texts that are joined are those of the first one, and then those of
the second one.** -/
theorem statements_append (hj : Joins s t) (ht : isBlankText (statements t).2 = true) :
    (statements (s ++ '\n' :: t)).1 = (statements s).1 ++ (statements t).1 ∧
      isBlankText (statements (s ++ '\n' :: t)).2 = true := by
  obtain ⟨hskip, hdoc⟩ := hj
  rw [readDefinitions_eq] at hskip hdoc
  cases hs : definition? s with
  | some x =>
    obtain ⟨o, r⟩ := x
    obtain ⟨u, y, rfl, rfl, hu⟩ := exists_front_of_definition hs
    rw [statements_of_some hs] at hskip ⊢
    have hjoin : u ++ ';' :: y ++ '\n' :: t = u ++ ';' :: (y ++ '\n' :: t) := by simp
    rw [hjoin, statements_of_some (hu _).1, ← skipBlank_append,
      statements_skipBlank_append (skipBlank_skipBlank y) hskip]
    obtain ⟨hsame, hblank⟩ := statements_skipBlank ht
    rw [hsame]
    exact ⟨rfl, hblank⟩
  | none =>
    rw [statements_of_none hs] at hskip hdoc ⊢
    have hstart := skipBlank_line_append hskip t
    have hafter : afterDoc? (s ++ '\n' :: t) = afterDoc? t := by
      rcases hdoc rfl with hspace | hlead
      · rw [afterDoc?_of_forall hspace, afterDoc?_of_space (by decide)]
      · rw [afterDoc?_eq_none hlead, afterDoc?_eq_none (hstart ▸ hlead)]
    have hsame := definition?_congr hstart hafter
    cases hdef : definition? t with
    | some x =>
      rw [statements_of_some hdef] at ht ⊢
      rw [statements_of_some (hsame.trans hdef)]
      exact ⟨rfl, ht⟩
    | none =>
      rw [statements_of_none hdef] at ht ⊢
      rw [statements_of_none (hsame.trans hdef), ← isBlankText_skipBlank, hstart,
        isBlankText_skipBlank]
      exact ⟨rfl, ht⟩

/-! ## All texts of a document -/

theorem fillWildcards_line_append (s t : List Char) :
    fillWildcards (s ++ '\n' :: t) = fillWildcards s ++ '\n' :: fillWildcards t := by
  rw [fillWildcards_append (by simp), fillWildcards_of_ne (by decide)]

/-- Each of the texts can be joined with what follows it. -/
def JoinAll : List String → Prop
  | [] => True
  | [_] => True
  | text :: text' :: texts =>
    Joins (fillWildcards text.toList)
      (fillWildcards ("\n".intercalate (text' :: texts)).toList) ∧ JoinAll (text' :: texts)

/-- By induction on the texts. -/
theorem parse_intercalate {texts : List String} {parts : List Fragments}
    (h : List.Forall₂ (fun text fs => parse text = .ok fs) texts parts) (hne : texts ≠ [])
    (hjoin : JoinAll texts) : parse ("\n".intercalate texts) = .ok parts.flatten := by
  induction h with
  | nil => exact absurd rfl hne
  | @cons text fs texts parts hfirst hrest ih =>
    cases hrest with
    | nil => simpa using hfirst
    | @cons text' fs' texts parts hsecond hrest =>
      obtain ⟨hj, hjoin⟩ := hjoin
      obtain ⟨hblank, hfs⟩ := parseChars_eq_ok_iff.1 hfirst
      obtain ⟨hblank', hfs'⟩ := parseChars_eq_ok_iff.1 (ih (List.cons_ne_nil _ _) hjoin)
      obtain ⟨hall, hend⟩ := statements_append hj hblank'
      have hchars : ("\n".intercalate (text :: text' :: texts)).toList =
          text.toList ++ '\n' :: ("\n".intercalate (text' :: texts)).toList := by
        rw [String.intercalate_cons_cons]
        simp
      unfold parse
      rw [hchars, fillWildcards_line_append]
      refine parseChars_eq_ok_iff.2 ⟨hend, ?_⟩
      rw [hall, List.filterMap_append, hfs, hfs']
      rfl

/-- **The combined text of a document gives the definitions of its texts one after the other**, if
each of them can be joined with what follows it.  The main definition is then the first one of the
own text. -/
theorem parse_combined {d : Document} {parts : List Fragments}
    (h : List.Forall₂ (fun text fs => parse text = .ok fs) d.texts parts)
    (hjoin : JoinAll d.texts) :
    parse d.combined = .ok parts.flatten ∧
      ∀ own, parse d.text = .ok own → own ≠ [] →
        Fragments.main? parts.flatten = Fragments.main? own := by
  refine ⟨parse_intercalate h (List.cons_ne_nil _ _) hjoin, fun own hown hne => ?_⟩
  cases h with
  | @cons _ fs _ parts hfirst hrest =>
    have hsame : fs = own := Except.ok.inj (hfirst.symm.trans hown)
    subst hsame
    obtain ⟨x, fs, rfl⟩ := List.exists_cons_of_ne_nil hne
    rfl

def commented : Document where
  text := "interface A \x7b\x7d; // own"
  extensions := ["partial interface A \x7b attribute long x; \x7d; /* more */"]
  mixins := [{ text := "interface mixin M \x7b\x7d;" }]

theorem parse_combined_commented :
    ∃ own extension mixin, own.map Definition.name = ["A"] ∧
      extension.map Definition.name = ["A"] ∧ mixin.map Definition.name = ["M"] ∧
      parse commented.combined = .ok (own ++ (extension ++ (mixin ++ []))) := by
  have hown : ∃ fs, parse "interface A \x7b\x7d; // own" = .ok fs ∧
      fs.map Definition.name = ["A"] := exists_parse (by decide +kernel)
  have hextension : ∃ fs,
      parse "partial interface A \x7b attribute long x; \x7d; /* more */" = .ok fs ∧
      fs.map Definition.name = ["A"] := exists_parse (by decide +kernel)
  have hmixin : ∃ fs, parse "interface mixin M \x7b\x7d;" = .ok fs ∧
      fs.map Definition.name = ["M"] := exists_parse (by decide +kernel)
  obtain ⟨own, hown, hA⟩ := hown
  obtain ⟨extension, hextension, hA'⟩ := hextension
  obtain ⟨mixin, hmixin, hM⟩ := hmixin
  have hjoin : JoinAll commented.texts :=
    ⟨by decide +kernel, by decide +kernel, trivial⟩
  exact ⟨own, extension, mixin, hA, hA', hM,
    (parse_combined (d := commented) (.cons hown (.cons hextension (.cons hmixin .nil))) hjoin).1⟩

/-- Documentation that no definition follows may end a text, but not stand inside of one. -/
def documentedEnd : Document where
  text := "interface A \x7b\x7d;\n/// end"
  extensions := ["partial interface A \x7b attribute long x; \x7d;"]

theorem combined_not_parsed :
    (∀ text ∈ documentedEnd.texts, ∃ fs, parse text = .ok fs) ∧
      ∃ e, parse documentedEnd.combined = .error e ∧ e.excerpt = "/// end" := by
  refine ⟨fun text htext => ?_, ?_⟩
  · have hok : ∀ text ∈ documentedEnd.texts, (parse text).isOk = true := by decide +kernel
    have := hok text htext
    cases hp : parse text with
    | error e => rw [hp] at this; cases this
    | ok fs => exact ⟨fs, rfl⟩
  · have herror : (match parse documentedEnd.combined with
        | .error e => e.excerpt == "/// end"
        | .ok _ => false) = true := by decide +kernel
    cases hp : parse documentedEnd.combined with
    | error e => rw [hp] at herror; exact ⟨e, rfl, eq_of_beq herror⟩
    | ok fs => rw [hp] at herror; cases herror

end IdlDocs.Idl
