import IdlDocs.Proofs.Idl.Members
import IdlDocs.Proofs.Idl.Types.Origins
import IdlDocs.Proofs.Idl.Wildcards

/-!
# Types in sources

Where a type stands in the source text of a definition, the word that the definition starts with
decides how the text is read.

* `definition_of_typedef`, `definition_of_interface`: what may be read behind the words `typedef`
  and `interface`.
* `gives_typeDefinition`, `gives_attributeInterface`: **a type definition, and an interface with
  one attribute, are read by their tokens.**
* `parse_of_gives`: a source text of one definition.
* `exists_origin_of_parse`: **the type of each type definition of a source has an origin.**
-/

namespace IdlDocs.Idl

open Text Text.Parser

variable {α β : Type} {p q : Parser α} {s : List Char} {t : Token} {ts us : List Token}
  {v w : String} {n : Nat}

/-! ## What need not be there -/

theorem gives_attributesOf (h : tokens s = ts) (hts : ts.head? ≠ some (.mark '[')) :
    Gives (attributesOf (levelAt n)) s [] ts := .of_same (attributesOf_apply n (h ▸ hts)) h

theorem gives_docs (h : tokens s = ts) (hts : ts.head? ≠ some (.mark '/')) : Gives docs s () ts :=
  .of_same (docs_apply (h ▸ hts)) h

theorem gives_absent (h : p s = none) (hs : tokens s = ts) : Gives (present p) s false ts :=
  .of_same (present_of_none h) hs

theorem optional_apply_of_none (h : p s = none) : Parser.optional p s = some (none, s) := by
  unfold Parser.optional
  rw [orElse_apply, map_apply, h]
  rfl

theorem gives_left_out (h : p s = none) (hs : tokens s = ts) :
    Gives (Parser.optional p) s none ts := .of_same (optional_apply_of_none h) hs

theorem qualifier_eq_none {choices : List (String × Qualifier)}
    (hc : ∀ c ∈ choices, IsWord c.1 ∧ (tokens s).head? ≠ some (.word c.1)) :
    firstOf (choices.map fun (w, q) => do keyword w; return q) s = none :=
  firstOf_eq_none_iff.2 fun c hmem => keyword_bind_eq_none (hc c hmem).1 (hc c hmem).2

/-! ## What is refused -/

section Refused

variable (h : (tokens s).head? = some t)

include h

theorem attributed_eq_none {f : List String → Parser α} (ht : t ≠ .mark '[')
    (hf : f [] s = none) : (attributesOf (levelAt n) >>= f) s = none := by
  rw [attributesOf_bind (by rw [h]; exact fun he => ht (Option.some.inj he))]
  exact hf

theorem documented_eq_none {f : Unit → Parser α} (ht : t ≠ .mark '/') (hf : f () s = none) :
    (docs >>= f) s = none := by
  rw [bind_apply, docs_apply (by rw [h]; exact fun he => ht (Option.some.inj he))]
  exact hf

theorem keyword_refused {f : Unit → Parser α} (hv : IsWord v) (ht : t ≠ .word v) :
    (keyword v >>= f) s = none :=
  keyword_bind_eq_none hv (by rw [h]; exact fun he => ht (Option.some.inj he))

omit h in
theorem left_out_eq_none {f : Option α → Parser β} (hp : p s = none) (hf : f none s = none) :
    (Parser.optional p >>= f) s = none := by
  rw [bind_apply, optional_apply_of_none hp]
  exact hf

omit h in
theorem absent_eq_none {f : Bool → Parser β} (hp : p s = none) (hf : f false s = none) :
    (present p >>= f) s = none := by
  rw [bind_apply, present_of_none hp]
  exact hf

/-- Of the definitions with members and without a parent, none is read that starts with another
word. -/
theorem plainInterface_eq_none {kind : InterfaceKind} {isPartial : Bool} {words : List String}
    {member : Parser Member} (ht : t ≠ .mark '[') (hv : IsWord v)
    (hne : t ≠ .word (if isPartial then "partial" else v)) :
    plainInterface (levelAt n) kind isPartial (v :: words) member s = none := by
  refine attributed_eq_none h ht ?_
  cases isPartial with
  | true => exact keyword_refused h (by decide) hne
  | false => exact bind_eq_none (keyword_refused h (f := fun _ => words.forM keyword) hv hne) _

end Refused

theorem map_eq_none {f : α → β} (h : p s = none) : (f <$> p) s = none := by
  rw [map_apply, h]
  rfl

/-- Behind the word `typedef`, a type definition or one of the two statements is read. -/
theorem definition_of_typedef (h : (tokens s).head? = some (.word "typedef")) :
    definition (levelAt n) s =
      ((some <$> typeDefinition (levelAt n)) <|>
        (do let (target, mixin) ← statement (levelAt n) "includes"
            return some (.includes target mixin)) <|>
        (do let _ ← statement (levelAt n) "implements"; return none)) s := by
  refine orElse_of_none (map_eq_none ?_) (orElse_of_none (map_eq_none ?_)
    (orElse_of_none (map_eq_none ?_) (orElse_of_none (map_eq_none ?_)
      (orElse_of_none (map_eq_none ?_) (orElse_of_none (map_eq_none ?_)
        (orElse_of_none (map_eq_none ?_) (orElse_of_none (map_eq_none ?_)
          (orElse_of_none (map_eq_none ?_) (orElse_of_none (map_eq_none ?_)
            (orElse_of_none (map_eq_none ?_) rfl))))))))))
  · exact attributed_eq_none h nofun (keyword_refused h (by decide) (by decide))
  · exact documented_eq_none h nofun
      (attributed_eq_none h nofun (keyword_refused h (by decide) (by decide)))
  · exact documented_eq_none h nofun
      (attributed_eq_none h nofun (keyword_refused h (by decide) (by decide)))
  · exact plainInterface_eq_none h nofun (by decide) (by decide)
  · rw [seqRight_eq_bind]
    exact documented_eq_none h nofun (plainInterface_eq_none h nofun (by decide) (by decide))
  · exact documented_eq_none h nofun
      (attributed_eq_none h nofun (keyword_refused h (by decide) (by decide)))
  · exact plainInterface_eq_none h nofun (by decide) (by decide)
  · exact plainInterface_eq_none h nofun (by decide) (by decide)
  · exact attributed_eq_none h nofun (keyword_refused h (by decide) (by decide))
  · exact plainInterface_eq_none h nofun (by decide) (by decide)
  · exact documented_eq_none h nofun
      (attributed_eq_none h nofun (keyword_refused h (by decide) (by decide)))

/-- Behind the word `interface`, an interface is read before anything else. -/
theorem definition_of_interface {i : Definition}
    (h : (tokens s).head? = some (.word "interface"))
    (hread : Gives (interfaceDefinition (levelAt n)) s i ts) :
    Gives (definition (levelAt n)) s (some i) ts := by
  refine .right (map_eq_none ?_) (.right (map_eq_none ?_) (.left hread.map))
  · exact attributed_eq_none h nofun (keyword_refused h (by decide) (by decide))
  · exact documented_eq_none h nofun
      (attributed_eq_none h nofun (keyword_refused h (by decide) (by decide)))

/-! ## Definitions with a type -/

theorem gives_attributedType {e : TypeExpr} (he : Fits .type e) (hn : e.tokens.length ≤ n)
    (h : tokens s = e.tokens ++ ts) (hs : Stops ts) :
    Gives (attributedType (levelAt n)) s e.kept ts := by
  have hhead : (e.tokens ++ ts).head? ≠ some (.mark '[') := by
    obtain ⟨a, us, hus, hopens⟩ := e.exists_opens
    rw [hus]
    intro ha
    rw [show a = .mark '[' from Option.some.inj ha] at hopens
    exact absurd hopens (by decide)
  exact (gives_attributesOf h hhead).bind fun r hr => gives_of_fits he hn hr hs

theorem gives_typeDefinition {e : TypeExpr} {name : String} (he : Fits .type e)
    (hn : e.tokens.length ≤ n) (hname : nameOf? w = some name) (hw : Token.stops (.word w) = true)
    (h : tokens s = .word "typedef" :: (e.tokens ++ .word w :: .mark ';' :: ts)) :
    Gives (typeDefinition (levelAt n)) s (.typedef name e.kept) ts := by
  refine (gives_attributesOf h nofun).bind fun _ hr => ?_
  refine (gives_keyword (by decide) hr).bind fun _ hr => ?_
  refine (gives_attributedType he hn hr hw).bind fun _ hr => ?_
  refine (gives_identifier hr hname).bind fun _ hr => ?_
  exact (gives_mark (m := ";") rfl (by decide) hr).bind fun _ hr => .pure hr

theorem gives_attributeMember {e : TypeExpr} {name : String} (he : Fits .type e)
    (hn : e.tokens.length ≤ n) (hname : nameOf? w = some name) (hw : Token.stops (.word w) = true)
    (h : tokens s = .word "attribute" :: (e.tokens ++ .word w :: .mark ';' :: ts)) :
    Gives (interfaceMember (levelAt n)) s (.ofAttribute name e.kept) ts := by
  have hhead : (tokens s).head? = some (.word "attribute") := by rw [h]; rfl
  refine .right (attributed_eq_none hhead nofun (keyword_refused hhead (by decide) (by decide))) ?_
  refine .left ((gives_attributesOf h nofun).bind fun r hr => ?_)
  refine (gives_left_out (qualifier_eq_none (by rw [hr]; simp; decide)) hr).bind fun r hr => ?_
  refine (gives_absent (keyword_eq_none (by decide) (by rw [hr]; simp)) hr).bind fun r hr => ?_
  have hbody : Gives (attributeBody (levelAt n)) r (name, e.kept) ts := by
    refine (gives_keyword (by decide) hr).bind fun _ hr => ?_
    refine (gives_attributedType he hn hr hw).bind fun _ hr => ?_
    refine (gives_identifier hr hname).bind fun _ hr => ?_
    exact (gives_mark (m := ";") rfl (by decide) hr).bind fun _ hr => .pure hr
  exact hbody.bind fun _ hr => .pure hr

theorem interfaceMember_eq_none (h : (tokens s).head? = some (.mark '\x7d')) :
    interfaceMember (levelAt n) s = none := by
  have hword (w : String) : (tokens s).head? ≠ some (.word w) := by
    rw [h]
    exact nofun
  have hkeyword {w : String} (hw : IsWord w) : keyword w s = none := keyword_eq_none hw (hword w)
  have hqualifier {choices : List (String × Qualifier)} (hc : ∀ c ∈ choices, IsWord c.1) :
      firstOf (choices.map fun (w, q) => do keyword w; return q) s = none :=
    qualifier_eq_none fun c hmem => ⟨hc c hmem, hword c.1⟩
  have hreturns : returnType (levelAt n) s = none := by
    refine orElse_eq_none (keyword_refused h (by decide) nofun) ?_
    refine orElse_eq_none (keyword_refused h (by decide) nofun) ?_
    refine orElse_eq_none (nonAny_eq_none h) ?_
    exact markable_eq_none (union_eq_none (by rw [h]; decide))
  have hdeclaration {name : String} {rest : Parser Unit} (hrest : rest s = none) :
      declaration (levelAt n) name rest s = none :=
    attributed_eq_none h (by decide) (bind_eq_none hrest _)
  refine orElse_eq_none ?_ (orElse_eq_none ?_ (orElse_eq_none ?_ (orElse_eq_none ?_ ?_)))
  · exact attributed_eq_none h (by decide) (keyword_refused h (by decide) nofun)
  · refine attributed_eq_none h (by decide) (left_out_eq_none (hqualifier (by decide)) ?_)
    refine absent_eq_none (hkeyword (by decide)) (bind_eq_none ?_ _)
    exact keyword_refused h (by decide) nofun
  · exact documented_eq_none h (by decide) (attributed_eq_none h (by decide)
      (keyword_refused h (by decide) nofun))
  · refine documented_eq_none h (by decide) (attributed_eq_none h (by decide) ?_)
    refine left_out_eq_none (hqualifier (by decide)) (left_out_eq_none (hqualifier (by decide)) ?_)
    exact bind_eq_none (bind_eq_none hreturns _) _
  · refine orElse_eq_none (hdeclaration (keyword_refused h (by decide) nofun)) ?_
    refine orElse_eq_none (hdeclaration (keyword_refused h (by decide) nofun)) ?_
    refine orElse_eq_none (hdeclaration (keyword_refused h (by decide) nofun)) ?_
    refine orElse_eq_none (hdeclaration (keyword_refused h (by decide) nofun)) ?_
    refine orElse_eq_none (hdeclaration (absent_eq_none (hkeyword (by decide))
      (keyword_refused h (by decide) nofun))) ?_
    refine orElse_eq_none (hdeclaration (absent_eq_none (hkeyword (by decide))
      (keyword_refused h (by decide) nofun))) ?_
    exact hdeclaration (hkeyword (by decide))

theorem gives_body {member : Parser α} {as : List α} (h : tokens s = .mark '\x7b' :: us)
    (hmembers : ∀ r, tokens r = us → Gives (many member) r as (.mark '\x7d' :: .mark ';' :: ts)) :
    Gives (body member) s as ts := by
  refine (gives_mark (m := "\x7b") rfl (by decide) h).bind fun r hr => ?_
  refine (hmembers r hr).bind fun _ hr => ?_
  refine (gives_mark (m := "\x7d") rfl (by decide) hr).bind fun _ hr => ?_
  exact (gives_mark (m := ";") rfl (by decide) hr).bind fun _ hr => .pure hr

theorem gives_attributeInterface {e : TypeExpr} {v name property : String} (he : Fits .type e)
    (hn : e.tokens.length ≤ n) (hname : nameOf? v = some name)
    (hproperty : nameOf? w = some property) (hw : Token.stops (.word w) = true)
    (h : tokens s = [Token.word "interface", .word v, .mark '\x7b', .word "attribute"] ++
      (e.tokens ++ [Token.word w, .mark ';', .mark '\x7d', .mark ';'])) :
    Gives (interfaceDefinition (levelAt n)) s
      (.interface { name, members := [.ofAttribute property e.kept] }) [] := by
  refine (gives_docs h nofun).bind fun _ hr => ?_
  refine (gives_attributesOf hr nofun).bind fun _ hr => ?_
  refine (gives_keyword (by decide) hr).bind fun _ hr => ?_
  refine (gives_identifier hr hname).bind fun r hr => ?_
  have hparent : (do mark ":"; identifier : Parser String) r = none :=
    bind_eq_none (mark_eq_none (m := ":") (c := ':') rfl (by decide) (by rw [hr]; simp)) _
  refine (gives_left_out hparent hr).bind fun x hr => ?_
  refine (gives_body hr fun y hr => ?_).bind fun _ hr => .pure hr
  refine gives_many_cons (gives_attributeMember he hn hproperty hw hr) ?_ fun z hz => ?_
  · rw [hr]
    exact nofun
  · exact gives_many_nil (interfaceMember_eq_none (by rw [hz]; rfl)) hz

/-! ## What was read behind the word `typedef` -/

theorem typeDefinition_eq_some {n : Nat} {s r : List Char} {d : Definition}
    (hs : .mark '[' ∉ tokens s) (h : typeDefinition (levelAt n) s = some (d, r)) :
    ∃ e w name, Fits .type e ∧ d = .typedef name e.kept ∧
      tokens s = .word "typedef" :: (e.tokens ++ .word w :: .mark ';' :: tokens r) := by
  unfold typeDefinition at h
  rw [attributesOf_bind fun hhead => hs (List.mem_of_mem_head? hhead)] at h
  obtain ⟨_, y, hy, h⟩ := bind_eq_some h
  obtain ⟨u, z, hz, h⟩ := bind_eq_some h
  obtain ⟨name, v, hv, h⟩ := bind_eq_some h
  obtain ⟨_, _, hend, h⟩ := bind_eq_some h
  cases h
  obtain ⟨e, he⟩ := exists_origin_attributedType hz
  obtain ⟨w, -, -, hw⟩ := identifier_eq_some hv
  have hkeyword := keyword_eq_some (by decide) hy
  have hy : .mark '[' ∉ tokens y := fun hmem => hs (hkeyword ▸ List.mem_cons_of_mem _ hmem)
  refine ⟨e, w, name, he.fits, by rw [he.kept], ?_⟩
  rw [hkeyword, he.covers hy, hw, mark_eq_some (m := ";") (c := ';') rfl (by decide) hend]

theorem statement_eq_some {n : Nat} {s r : List Char} {verb : String} {x : String × String}
    (hs : .mark '[' ∉ tokens s) (hverb : IsWord verb)
    (h : statement (levelAt n) verb s = some (x, r)) :
    ∃ v w, tokens s = [Token.word v, .word verb, .word w] ++ .mark ';' :: tokens r := by
  unfold statement at h
  rw [attributesOf_bind fun hhead => hs (List.mem_of_mem_head? hhead)] at h
  obtain ⟨_, y, hy, h⟩ := bind_eq_some h
  obtain ⟨_, z, hz, h⟩ := bind_eq_some h
  obtain ⟨_, k, hk, h⟩ := bind_eq_some h
  obtain ⟨_, _, hend, h⟩ := bind_eq_some h
  cases h
  obtain ⟨v, -, -, hv⟩ := identifier_eq_some hy
  obtain ⟨w, -, -, hw⟩ := identifier_eq_some hk
  refine ⟨v, w, ?_⟩
  rw [hv, keyword_eq_some hverb hz, hw, mark_eq_some (m := ";") (c := ';') rfl (by decide) hend]
  rfl

/-- Behind the word `typedef`, a text is read up to a semicolon, and as a type definition only if a
written type stands there. -/
theorem definition_eq_some_of_typedef {s r : List Char} {o : Option Definition}
    (hs : .mark '[' ∉ tokens s) (hhead : (tokens s).head? = some (.word "typedef"))
    (h : definition (levelAt n) s = some (o, r)) :
    ∃ xs, tokens s = xs ++ .mark ';' :: tokens r ∧ ∀ name t, o = some (.typedef name t) →
      ∃ e w, Fits .type e ∧ e.kept = t ∧ xs = .word "typedef" :: (e.tokens ++ [Token.word w]) := by
  rw [definition_of_typedef hhead] at h
  rcases orElse_eq_some h with h | ⟨-, h⟩
  · obtain ⟨d, hd, rfl⟩ := map_eq_some h
    obtain ⟨e, w, name, he, rfl, hs⟩ := typeDefinition_eq_some hs hd
    refine ⟨.word "typedef" :: (e.tokens ++ [Token.word w]), by simp [hs], ?_⟩
    rintro _ _ ⟨⟩
    exact ⟨e, w, he, rfl, rfl⟩
  rcases orElse_eq_some h with h | ⟨-, h⟩
  · obtain ⟨x, y, hx, h⟩ := bind_eq_some h
    cases h
    obtain ⟨v, w, hs⟩ := statement_eq_some hs (by decide) hx
    exact ⟨_, hs, nofun⟩
  · obtain ⟨x, y, hx, h⟩ := bind_eq_some h
    cases h
    obtain ⟨v, w, hs⟩ := statement_eq_some hs (by decide) hx
    exact ⟨_, hs, nofun⟩

/-! ## Source texts -/

theorem isBlankText_of_tokens (h : tokens s = []) : isBlankText s = true := by
  have hblank : skipBlank s = [] := by
    cases hs : skipBlank s with
    | nil => rfl
    | cons c r =>
      have hfirst : firstToken? s ≠ none := by
        unfold firstToken?
        rw [hs]
        dsimp only
        split <;> exact nofun
      obtain ⟨x, hx⟩ := Option.ne_none_iff_exists'.1 hfirst
      rw [tokens_of_some hx] at h
      cases h
  rw [← isBlankText_skipBlank, hblank, isBlankText_nil]

theorem fillWildcards_of_notMem (h : '=' ∉ s) : fillWildcards s = s :=
  fillWildcards_eq_self fun hpart => h (hpart.subset List.mem_cons_self)

/-- **A source text of one definition gives this definition.** -/
theorem parse_of_gives {source : String} {d : Definition} (hequals : '=' ∉ source.toList)
    (h : Gives (definition (levelAt source.toList.length)) source.toList (some d) []) :
    parse source = .ok [d] := by
  obtain ⟨r, hr, htokens, -⟩ := h
  have hblank := isBlankText_of_tokens htokens
  have hstatements : statements source.toList = ([some d], r) := by
    rw [statements_of_some hr, statements_of_none (definition?_of_isBlankText hblank)]
  unfold parse
  rw [fillWildcards_of_notMem hequals, parseChars_eq_ok_iff, hstatements]
  exact ⟨hblank, rfl⟩

/-- **The type of each type definition of a source has an origin.** -/
theorem exists_origin_of_parse {source name : String} {ds : List Definition} {t : TypeExpr}
    (h : parse source = .ok ds) (hd : .typedef name t ∈ ds) : ∃ e, Fits .type e ∧ e.kept = t := by
  have htype (n : Nat) :
      Yields (fun t => ∃ e, Fits .type e ∧ e.kept = t) (attributedType (levelAt n)) := by
    intro s r t ht
    obtain ⟨e, he⟩ := exists_origin_attributedType ht
    exact ⟨e, he.fits, he.kept⟩
  have hmade := forall_of_parse (fun n => yields_definition (P := fun _ => True)
    (F := fun _ => True) .trivial .trivial .trivial .trivial (htype n)) h _ hd
  exact hmade.type name t rfl

end IdlDocs.Idl
