import IdlDocs.Idl.Equality
import IdlDocs.Proofs.Idl.Types.Sources

/-!
# Types that are written out

What is left of a type text when it is read and the type is written out again, and whether a type
that is written out is read as itself.

* `parse_typedef_of_fits`, `parse_attribute_of_fits`: written types in sources are read as what is
  kept of them.
* `typedef_read_again_iff`: **a type is read again as itself if its nullable marks are kept.**
* `attribute_text`: **the type of an attribute is written out as its text**, without the low lines
  in front of names and the nullable marks behind keyword types.
-/

namespace IdlDocs.Idl

open Text Text.Parser

variable {ts : List Token}

/-! ## Type definitions -/

section Typedef

variable {e t : TypeExpr}

theorem toList_typedef (t : TypeExpr) : ("typedef " ++ t.text ++ " X;").toList =
    "typedef".toList ++ ' ' :: (spaced t.tokens ++ ' ' :: ("X".toList ++ [';'])) := by
  have htext : t.text.toList = spaced t.tokens := by
    rw [t.spaced_tokens]
    exact String.toList_ofList
  rw [String.toList_append, String.toList_append, htext, List.append_assoc]
  rfl

theorem tokens_typedef (ht : ∀ a ∈ t.tokens, a.IsProper) :
    tokens ("typedef " ++ t.text ++ " X;").toList =
      .word "typedef" :: (t.tokens ++ [Token.word "X", .mark ';']) := by
  rw [toList_typedef, tokens_word_append (by decide) rfl, tokens_space_cons rfl,
    tokens_spaced_append ht rfl, tokens_space_cons rfl, tokens_word_append (by decide) rfl,
    tokens_mark_cons (by decide), tokens_nil]

theorem equals_notMem_typedef (ht : ∀ a ∈ t.tokens, a.IsProper) :
    '=' ∉ ("typedef " ++ t.text ++ " X;").toList := by
  have hspaced := notMem_spaced (c := '=') ht (by decide) (by decide)
  rw [toList_typedef]
  simp only [List.mem_append, List.mem_cons, hspaced]
  decide

/-- A written type is read in a type definition as what is kept of it. -/
theorem parse_typedef_of_fits (he : Fits .type e) :
    parse ("typedef " ++ e.text ++ " X;") = .ok [.typedef ("X") e.kept] := by
  have htokens := tokens_typedef he.isProper
  have hlength := length_tokens_le ("typedef " ++ e.text ++ " X;").toList
  rw [htokens, List.length_cons, List.length_append] at hlength
  have hread := gives_typeDefinition (n := ("typedef " ++ e.text ++ " X;").toList.length) (w := "X")
    he (by omega) rfl (by decide) htokens
  refine parse_of_gives (equals_notMem_typedef he.isProper) ?_
  exact .of_eq (definition_of_typedef (by rw [htokens]; rfl)) hread.map.left

/-- The first semicolon of the source text of a type definition is its last token. -/
theorem last_of_tokens_typedef (ht : ∀ a ∈ t.tokens, a.IsProper) {xs ys : List Token}
    (h : .word "typedef" :: (t.tokens ++ [Token.word "X", .mark ';']) =
      xs ++ Token.mark ';' :: ys) :
    .word "typedef" :: (t.tokens ++ [Token.word "X"]) = xs ∧ ys = [] := by
  have hnot : Token.mark ';' ∉ .word "typedef" :: (t.tokens ++ [Token.word "X"]) := by
    simp [notMem_of_isProper ht (show ';' ∉ ['(', ')', '<', '>', ',', '?'] by decide)]
  have hsame : Token.word "typedef" :: (t.tokens ++ [Token.word "X"]) ++ Token.mark ';' :: [] =
      xs ++ Token.mark ';' :: ys := by
    rw [← h]
    simp
  obtain ⟨hxs, -, hys⟩ := (List.append_cons_inj_of_notMem hnot List.not_mem_nil).1 hsame
  exact ⟨hxs, hys.symm⟩

theorem keepsMarks_of_parse_typedef (ht : ∀ a ∈ t.tokens, a.IsProper)
    (h : parse ("typedef " ++ t.text ++ " X;") = .ok [.typedef ("X") t]) :
    t.keepsMarks .type = true := by
  have htokens := tokens_typedef ht
  unfold parse at h
  rw [fillWildcards_of_notMem (equals_notMem_typedef ht), parseChars_eq_ok_iff] at h
  generalize ("typedef " ++ t.text ++ " X;").toList = s at h htokens
  have hbracket : .mark '[' ∉ tokens s := by
    rw [htokens]
    simp [notMem_of_isProper ht (show '[' ∉ ['(', ')', '<', '>', ',', '?'] by decide)]
  cases hfirst : definition? s with
  | none =>
    rw [statements_of_none hfirst] at h
    cases h.2
  | some x =>
    obtain ⟨o, r⟩ := x
    obtain ⟨xs, hs, horigin⟩ :=
      definition_eq_some_of_typedef hbracket (by rw [htokens]; rfl) hfirst
    -- Nothing stands behind the first semicolon, so that this definition is the only one.
    obtain ⟨hxs, hr⟩ := last_of_tokens_typedef ht (htokens.symm.trans hs)
    rw [statements_of_some hfirst,
      statements_of_none (definition?_of_isBlankText (isBlankText_of_tokens hr))] at h
    have ho : o = some (.typedef ("X") t) := by
      cases o with
      | none => cases h.2
      | some d => exact congrArg some (List.cons.inj h.2).1
    obtain ⟨e, w, he, hkept, rfl⟩ := horigin "X" t ho
    have hwritten : t.tokens = e.tokens := (List.append_inj' (List.cons.inj hxs).2 rfl).1
    obtain ⟨hself, hmarks⟩ := he.kept_of_tokens (by rw [← he.tokens_kept, hkept, hwritten])
    rwa [← hkept, hself]

end Typedef

/-- **A type is read again as itself if its nullable marks are kept**: if none stands behind the
name of a keyword type, or behind a bare word at its place. -/
theorem typedef_read_again_iff {source name : String} {ds : List Definition} {t : TypeExpr}
    (h : parse source = .ok ds) (hd : .typedef name t ∈ ds) :
    parse ("typedef " ++ t.text ++ " X;") = .ok [.typedef ("X") t] ↔ t.keepsMarks .type = true := by
  obtain ⟨e, he, rfl⟩ := exists_origin_of_parse h hd
  refine ⟨keepsMarks_of_parse_typedef he.isProper_kept, fun hmarks => ?_⟩
  obtain ⟨hfits, hself⟩ := he.kept_of_keepsMarks hmarks
  have hread := parse_typedef_of_fits hfits
  rwa [hself] at hread

/-- A record of unions in a list, with marks and names that are keywords without their low line. -/
def nestedType : TypeExpr :=
  .nullable (.generic .sequence [.generic .record [.named "DOMString",
    .union [.nullable (.named "unsigned long long"), .generic .promise [.named "undefined"],
      .nullable (.named "or"), .named "boolean"]]])

theorem typedef_read_again_nested :
    parse ("typedef sequence<record<DOMString, (unsigned long long? or " ++
        "Promise < undefined > or _or? or boolean?)>>? A;") = .ok [.typedef ("A") nestedType] ∧
      parse ("typedef " ++ nestedType.text ++ " X;") = .ok [.typedef ("X") nestedType] := by
  have h : parse ("typedef sequence<record<DOMString, (unsigned long long? or " ++
      "Promise < undefined > or _or? or boolean?)>>? A;") = .ok [.typedef ("A") nestedType] := by
    decide +kernel
  exact ⟨h, (typedef_read_again_iff h List.mem_cons_self).2 (by decide)⟩

/-- The low line that makes a name of a keyword is not written again, and the nullable mark is then
lost, or refused. -/
theorem typedef_read_otherwise :
    (parse "typedef _DOMString? A;" = .ok [.typedef ("A") (.nullable (.named "DOMString"))] ∧
      parse ("typedef " ++ (TypeExpr.nullable (.named "DOMString")).text ++ " X;") =
        .ok [.typedef ("X") (.named "DOMString")]) ∧
    parse "typedef _any? A;" = .ok [.typedef ("A") (.nullable (.named "any"))] ∧
    (parse ("typedef " ++ (TypeExpr.nullable (.named "any")).text ++ " X;")).toOption = none := by
  decide +kernel

/-! ## Attributes -/

theorem wholly_eq_some {α : Type} {p : Parser α} {s : List Char} {a : α}
    (h : wholly p s = some a) : p s = some (a, []) := by
  unfold wholly at h
  split at h
  · next hp => rw [hp, Option.some.inj h]
  · cases h

theorem toList_attribute {T : String} (hT : T.toList = spaced ts) :
    ("interface A \x7b attribute " ++ T ++ " x; \x7d;").toList =
      "interface".toList ++ ' ' :: ("A".toList ++ ' ' :: '\x7b' :: ' ' ::
        ("attribute".toList ++ ' ' :: (spaced ts ++ ' ' ::
          ("x".toList ++ [';', ' ', '\x7d', ';'])))) := by
  rw [String.toList_append, String.toList_append, hT, List.append_assoc]
  rfl

theorem tokens_attribute {T : String} (hT : T.toList = spaced ts) (hts : ∀ t ∈ ts, t.IsProper) :
    tokens ("interface A \x7b attribute " ++ T ++ " x; \x7d;").toList =
      [Token.word "interface", .word "A", .mark '\x7b', .word "attribute"] ++
        (ts ++ [Token.word "x", .mark ';', .mark '\x7d', .mark ';']) := by
  rw [toList_attribute hT, tokens_word_append (by decide) rfl, tokens_space_cons rfl,
    tokens_word_append (by decide) rfl, tokens_space_cons rfl, tokens_mark_cons (by decide),
    tokens_space_cons rfl, tokens_word_append (by decide) rfl, tokens_space_cons rfl,
    tokens_spaced_append hts rfl, tokens_space_cons rfl, tokens_word_append (by decide) rfl,
    tokens_mark_cons (by decide), tokens_space_cons rfl, tokens_mark_cons (by decide),
    tokens_mark_cons (by decide), tokens_nil]
  rfl

theorem parse_attribute_of_fits {e : TypeExpr} {T : String} (he : Fits .type e)
    (hT : T.toList = spaced e.tokens) :
    parse ("interface A \x7b attribute " ++ T ++ " x; \x7d;") =
      .ok [.interface { name := "A", members := [.ofAttribute "x" e.kept] }] := by
  have htokens := tokens_attribute hT he.isProper
  have hlength := length_tokens_le ("interface A \x7b attribute " ++ T ++ " x; \x7d;").toList
  rw [htokens, List.length_append, List.length_append] at hlength
  refine parse_of_gives ?_ (definition_of_interface (by rw [htokens]; rfl)
    (gives_attributeInterface he (by omega) rfl rfl (by decide) htokens))
  have hspaced := notMem_spaced (c := '=') he.isProper (by decide) (by decide)
  rw [toList_attribute hT]
  simp only [List.mem_append, List.mem_cons, hspaced]
  decide

/-- **The type of an attribute is written out as its text**, without the low lines in front of names
and the nullable marks behind keyword types: a type text with canonical spaces is written out as
itself if there are none of these. -/
theorem attribute_text {T : String} {t : TypeExpr}
    (hread : wholly (attributedType (levelAt T.length)) T.toList = some t)
    (hattributes : '[' ∉ T.toList) (hspaces : spaced (tokens T.toList) = T.toList) :
    parse ("interface A \x7b attribute " ++ T ++ " x; \x7d;") =
        .ok [.interface { name := "A", members := [.ofAttribute "x" t] }] ∧
      t.text = String.ofList (spaced (keptTokens (tokens T.toList))) ∧
      (t.text = T ↔ (∀ w, .word w ∈ tokens T.toList → w.toList.head? ≠ some '_') ∧
        ∀ w ∈ keywordTypes, ¬ [.word w, .mark '?'] <:+: tokens T.toList) := by
  obtain ⟨e, he⟩ := exists_origin_attributedType (wholly_eq_some hread)
  have htokens : tokens T.toList = e.tokens := by
    have hcovers := he.covers fun hmem => hattributes (hspaces ▸ mem_spaced_of_mark hmem)
    rwa [tokens_nil, List.append_nil] at hcovers
  have htext : t.text = String.ofList (spaced (keptTokens (tokens T.toList))) := by
    rw [← he.kept, he.fits.text_kept, htokens]
  have hproper : ∀ a ∈ tokens T.toList, a.IsProper := htokens ▸ he.fits.isProper
  refine ⟨?_, htext, ?_⟩
  · rw [← he.kept]
    exact parse_attribute_of_fits he.fits (by rw [← htokens, hspaces])
  · rw [← keptTokens_eq_self_iff hproper, htext, ← String.toList_inj, String.toList_ofList]
    constructor
    · intro hsame
      exact spaced_inj (isProper_keptTokens hproper) hproper (hsame.trans hspaces.symm)
    · intro hsame
      rw [hsame, hspaces]

def nestedText : String :=
  "sequence<record<DOMString, (unsigned long long? or Promise<undefined> or or? or boolean)>>?"

theorem attribute_text_nested :
    (wholly (attributedType (levelAt nestedText.length)) nestedText.toList = some nestedType ∧
      '[' ∉ nestedText.toList ∧ spaced (tokens nestedText.toList) = nestedText.toList) ∧
    parse ("interface A \x7b attribute " ++ nestedText ++ " x; \x7d;") =
        .ok [.interface { name := "A", members := [.ofAttribute "x" nestedType] }] ∧
      nestedType.text = nestedText := by
  have hread : wholly (attributedType (levelAt nestedText.length)) nestedText.toList =
      some nestedType := by decide +kernel
  have hattributes : '[' ∉ nestedText.toList := by decide +kernel
  have hspaces : spaced (tokens nestedText.toList) = nestedText.toList := by decide +kernel
  obtain ⟨hparse, htext, -⟩ := attribute_text hread hattributes hspaces
  refine ⟨⟨hread, hattributes, hspaces⟩, hparse, htext.trans ?_⟩
  decide +kernel

/-- The nullable mark of a keyword type is lost, also inside of another type, where that of a number
is written out again. -/
theorem keyword_mark_lost :
    (wholly (attributedType (levelAt 10)) "DOMString?".toList = some (.named "DOMString") ∧
      '[' ∉ "DOMString?".toList ∧ spaced (tokens "DOMString?".toList) = "DOMString?".toList ∧
      parse "interface A \x7b attribute DOMString? x; \x7d;" =
        .ok [.interface { name := "A", members := [.ofAttribute "x" (.named "DOMString")] }] ∧
      (TypeExpr.named "DOMString").text ≠ "DOMString?") ∧
    parse "interface A \x7b attribute (sequence<boolean?> or long?) x; \x7d;" =
      .ok [.interface { name := "A", members := [.ofAttribute "x" (.union
        [.generic .sequence [.named "boolean"], .nullable (.named "long")])] }] := by
  decide +kernel

end IdlDocs.Idl
