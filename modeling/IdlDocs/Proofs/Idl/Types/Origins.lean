import IdlDocs.Proofs.Idl.Types.Places

/-!
# What a type was read from

Each type that is read is what is kept of a written type that may stand at its place.  Where no
extended attributes stand between the members of its unions, the text in front of the rest has
exactly the tokens of this written type.

* `keyword_eq_some`, `mark_eq_some`, `identifier_eq_some`: the tokens that were read.
* `Covers`: a written type stands at the front of a text.
* `Origin`: **what was read at a place comes from a written type.**
* `origin_nonAnyType`, `origin_unionBody`: the forms of one level, from those of the level below.
* `exists_origin`, `exists_origin_attributedType`: all places, at all levels.
-/

namespace IdlDocs.Idl

open Text Text.Parser

variable {α β : Type} {p q : Parser α} {s r : List Char} {w m : String} {c : Char}

/-! ## Tokens that were read -/

theorem bind_eq_some {f : α → Parser β} {b : β} (h : (p >>= f) s = some (b, r)) :
    ∃ a x, p s = some (a, x) ∧ f a x = some (b, r) := by
  rw [bind_apply] at h
  obtain ⟨⟨a, x⟩, ha, hb⟩ := Option.bind_eq_some_iff.1 h
  exact ⟨a, x, ha, hb⟩

theorem bind_of_some {f : α → Parser β} {a : α} (h : p s = some (a, r)) :
    (p >>= f) s = f a r := by
  rw [bind_apply, h]
  rfl

theorem map_eq_some {f : α → β} {b : β} (h : (f <$> p) s = some (b, r)) :
    ∃ a, p s = some (a, r) ∧ f a = b := by
  rw [map_apply] at h
  obtain ⟨⟨a, x⟩, ha, he⟩ := Option.map_eq_some_iff.1 h
  cases he
  exact ⟨a, ha, rfl⟩

theorem orElse_eq_some {x : α × List Char} (h : (p <|> q) s = some x) :
    p s = some x ∨ p s = none ∧ q s = some x := by
  rw [orElse_apply] at h
  exact Option.or_eq_some_iff.1 h

theorem firstOf_eq_some {γ : Type} {f : γ → Parser α} {ws : List γ} {x : α × List Char}
    (h : firstOf (ws.map f) s = some x) : ∃ w ∈ ws, f w s = some x := by
  induction ws with
  | nil => cases h
  | cons w ws ih =>
    rcases orElse_eq_some (q := firstOf (ws.map f)) h with h | ⟨-, h⟩
    · exact ⟨w, List.mem_cons_self, h⟩
    · obtain ⟨v, hv, h⟩ := ih h
      exact ⟨v, List.mem_cons_of_mem w hv, h⟩

theorem tokens_eq_cons {t : Token} (h : (tokens s).head? = some t) :
    tokens s = t :: tokens (after s) := by
  obtain ⟨ts, hts⟩ := List.head?_eq_some_iff.1 h
  rw [tokens_after, hts]
  rfl

theorem keyword_eq_some {u : Unit} (hw : IsWord w) (h : keyword w s = some (u, r)) :
    tokens s = .word w :: tokens r := by
  obtain ⟨hhead, rfl⟩ := (keyword_eq_some_iff hw).1 h
  exact tokens_eq_cons hhead

theorem mark_eq_some {u : Unit} (hm : m.toList = [c]) (hc : isWordStart c = false)
    (h : mark m s = some (u, r)) : tokens s = .mark c :: tokens r := by
  obtain ⟨hhead, rfl⟩ := (mark_eq_some_iff hm hc).1 h
  exact tokens_eq_cons hhead

theorem isWord_of_head? (h : (tokens s).head? = some (.word w)) : IsWord w := by
  rw [head?_tokens] at h
  obtain ⟨x, hx, hw⟩ := Option.map_eq_some_iff.1 h
  unfold firstToken? at hx
  split at hx
  · cases hx
  · next c r _ =>
    split at hx
    · next hc =>
      cases hx
      obtain rfl := Token.word.inj hw
      refine ⟨by rw [String.toList_ofList]; exact hc, ?_⟩
      rw [String.toList_ofList, List.all_cons, isWordChar_of_isWordStart hc]
      exact List.all_takeWhile
    · cases hx
      cases hw

theorem identifier_eq_some {n : String} (h : identifier s = some (n, r)) :
    ∃ w, IsWord w ∧ nameOf? w = some n ∧ tokens s = .word w :: tokens r := by
  rw [identifier_apply] at h
  obtain ⟨k, hk, hn⟩ := Option.map_eq_some_iff.1 h
  obtain ⟨t, ht, hname⟩ := Option.bind_eq_some_iff.1 hk
  cases hn
  cases t with
  | mark c => cases hname
  | word w => exact ⟨w, isWord_of_head? ht, hname, tokens_eq_cons ht⟩

theorem nullableMark_eq_some {b : Bool} (h : nullableMark s = some (b, r)) :
    tokens s = markIf b ++ tokens r := by
  rw [nullableMark_apply] at h
  split at h
  · next hhead =>
    cases h
    exact tokens_eq_cons hhead
  · cases h
    rfl

theorem markable_eq_some {p : Parser TypeExpr} {t : TypeExpr}
    (h : markable p s = some (t, r)) :
    ∃ u x b, p s = some (u, x) ∧ t = u.withMark b ∧ tokens x = markIf b ++ tokens r := by
  obtain ⟨u, x, hu, h⟩ := bind_eq_some h
  obtain ⟨b, y, hb, h⟩ := bind_eq_some h
  cases h
  exact ⟨u, x, b, hu, rfl, nullableMark_eq_some hb⟩

theorem bracketed_eq_some {a : α} (hw : IsWord w) (h : bracketed w p s = some (a, r)) :
    ∃ x y, tokens s = .word w :: .mark '<' :: tokens x ∧ p x = some (a, y) ∧
      tokens y = .mark '>' :: tokens r := by
  obtain ⟨_, x, hx, h⟩ := bind_eq_some h
  obtain ⟨_, y, hy, h⟩ := bind_eq_some h
  obtain ⟨a, z, hz, h⟩ := bind_eq_some h
  obtain ⟨_, v, hv, h⟩ := bind_eq_some h
  cases h
  refine ⟨y, z, ?_, hz, mark_eq_some (m := ">") (c := '>') rfl (by decide) hv⟩
  rw [keyword_eq_some hw hx, mark_eq_some (m := "<") (c := '<') rfl (by decide) hy]

/-! ## Names of types -/

theorem forM_eq_some {ws : List String} (hws : ∀ w ∈ ws, IsWord w) {u : Unit}
    (h : ws.forM keyword s = some (u, r)) : tokens s = ws.map .word ++ tokens r := by
  induction ws generalizing s with
  | nil =>
    cases h
    rfl
  | cons w ws ih =>
    obtain ⟨_, x, hx, h⟩ := bind_eq_some (f := fun _ => ws.forM keyword) h
    rw [keyword_eq_some (hws w List.mem_cons_self) hx,
      ih (fun v hv => hws v (List.mem_cons_of_mem w hv)) h]
    rfl

theorem modified_eq_some {modifier : String} {size : List String} {t : TypeExpr}
    (hm : IsWord modifier) (hsize : ∀ w ∈ size, IsWord w)
    (h : modified modifier size s = some (t, r)) :
    ∃ b, t = .named (" ".intercalate (if b then modifier :: size else size)) ∧
      tokens s = leadIf modifier b ++ (size.map .word ++ tokens r) := by
  obtain ⟨b, x, hb, h⟩ := bind_eq_some h
  obtain ⟨_, y, hy, h⟩ := bind_eq_some h
  cases h
  refine ⟨b, rfl, ?_⟩
  rw [← forM_eq_some hsize hy]
  by_cases hhead : (tokens s).head? = some (.word modifier)
  · have hlead := present_of_some ((keyword_apply hm s).trans (if_pos hhead))
    obtain ⟨rfl, rfl⟩ := Prod.mk.inj (Option.some.inj (hlead.symm.trans hb))
    exact tokens_eq_cons hhead
  · have hlead := present_of_none (keyword_eq_none hm hhead)
    obtain ⟨rfl, rfl⟩ := Prod.mk.inj (Option.some.inj (hlead.symm.trans hb))
    rfl

theorem basicType_of_size {modifier : String} {size : List String}
    (h : modifier = "unsigned" ∧ size ∈ integerSizes ∨
      modifier = "unrestricted" ∧ size ∈ floatSizes) (b : Bool) :
    " ".intercalate (if b then modifier :: size else size) ∈ basicTypes ∧
      wordsOf (" ".intercalate (if b then modifier :: size else size)).toList =
        leadIf modifier b ++ size.map .word := by
  have hinteger : ∀ size ∈ integerSizes, ∀ b : Bool,
      " ".intercalate (if b then "unsigned" :: size else size) ∈ basicTypes ∧
        wordsOf (" ".intercalate (if b then "unsigned" :: size else size)).toList =
          leadIf "unsigned" b ++ size.map .word := by decide +kernel
  have hfloat : ∀ size ∈ floatSizes, ∀ b : Bool,
      " ".intercalate (if b then "unrestricted" :: size else size) ∈ basicTypes ∧
        wordsOf (" ".intercalate (if b then "unrestricted" :: size else size)).toList =
          leadIf "unrestricted" b ++ size.map .word := by decide +kernel
  rcases h with ⟨rfl, hsize⟩ | ⟨rfl, hsize⟩
  · exact hinteger size hsize b
  · exact hfloat size hsize b

theorem number_eq_some {t : TypeExpr}
    (h : integerType s = some (t, r) ∨ floatType s = some (t, r)) :
    ∃ n ∈ basicTypes, t = .named n ∧ tokens s = wordsOf n.toList ++ tokens r := by
  have hmodified {modifier : String} {size : List String}
      (hsize : modifier = "unsigned" ∧ size ∈ integerSizes ∨
        modifier = "unrestricted" ∧ size ∈ floatSizes)
      (hm : IsWord modifier) (hwords : ∀ w ∈ size, IsWord w)
      (h : modified modifier size s = some (t, r)) :
      ∃ n ∈ basicTypes, t = .named n ∧ tokens s = wordsOf n.toList ++ tokens r := by
    obtain ⟨b, ht, htokens⟩ := modified_eq_some hm hwords h
    obtain ⟨hbasic, hname⟩ := basicType_of_size hsize b
    exact ⟨_, hbasic, ht, by rw [htokens, hname, List.append_assoc]⟩
  rcases h with h | h
  · rcases orElse_eq_some h with h | ⟨-, h⟩
    · exact hmodified (by decide) (by decide) (by decide) h
    rcases orElse_eq_some h with h | ⟨-, h⟩
    · exact hmodified (by decide) (by decide) (by decide) h
    · exact hmodified (by decide) (by decide) (by decide) h
  · rcases orElse_eq_some h with h | ⟨-, h⟩
    · exact hmodified (by decide) (by decide) (by decide) h
    · exact hmodified (by decide) (by decide) (by decide) h

theorem keywordType_eq_some {t : TypeExpr} {ws : List String} (hws : ws ⊆ keywordTypes)
    (h : firstOf (ws.map keywordType) s = some (t, r)) :
    ∃ w ∈ keywordTypes, ∃ b, t = .named w ∧ tokens s = .word w :: (markIf b ++ tokens r) := by
  obtain ⟨w, hw, h⟩ := firstOf_eq_some h
  obtain ⟨_, x, hx, h⟩ := bind_eq_some h
  obtain ⟨b, y, hb, h⟩ := bind_eq_some h
  cases h
  refine ⟨w, hws hw, b, rfl, ?_⟩
  rw [keyword_eq_some (isSpelled_of_keyword (hws hw)).2.2 hx, nullableMark_eq_some hb]

theorem notMem_of_keywordType_eq_none {ws : List String} (hws : ws ⊆ keywordTypes)
    (h : firstOf (ws.map keywordType) s = none) (hw : (tokens s).head? = some (.word w)) :
    w ∉ ws := by
  intro hmem
  have hword := (isSpelled_of_keyword (hws hmem)).2.2
  have hread : keywordType w s = some (.named w, (nullableMark (after s)).elim s Prod.snd) := by
    unfold keywordType
    rw [bind_apply, keyword_apply hword, if_pos hw, Option.bind_some, bind_apply,
      nullableMark_apply]
    rfl
  exact nomatch hread.symm.trans (firstOf_eq_none_iff.1 h w hmem)

/-! ## Origins -/

/-- The text in front of the rest has these tokens, where no extended attributes are there. -/
def Covers (ts : List Token) (s r : List Char) : Prop :=
  .mark '[' ∉ tokens s → tokens s = ts ++ tokens r

namespace Covers

variable {ts us : List Token} {x y : List Char}

theorem of_eq (h : tokens s = ts ++ tokens r) : Covers ts s r := fun _ => h

theorem trans (h : Covers ts s x) (h' : Covers us x r) : Covers (ts ++ us) s r := by
  intro hs
  have hts := h hs
  rw [hts, h' fun hx => hs (hts ▸ List.mem_append_right ts hx), List.append_assoc]

theorem bracketed {t u v : Token} (hs : tokens s = t :: u :: tokens x) (h : Covers ts x y)
    (hy : tokens y = v :: tokens r) : Covers (t :: u :: (ts ++ [v])) s r := by
  have hopen : Covers [t, u] s x := of_eq hs
  exact hopen.trans (h.trans (of_eq hy))

theorem mark {t : TypeExpr} {b : Bool} (h : Covers t.tokens s x)
    (hx : tokens x = markIf b ++ tokens r) : Covers (t.withMark b).tokens s r := by
  rw [TypeExpr.tokens_withMark]
  exact trans h (of_eq hx)

end Covers

/-- A written type that a type was read from, at the front of a text. -/
structure Origin (p : Place) (s : List Char) (t : TypeExpr) (r : List Char) (e : TypeExpr) :
    Prop where
  fits : Fits p e
  kept : e.kept = t
  covers : Covers e.tokens s r

def Level.IsTraced (inner : Level) : Prop :=
  ∀ p s t r, p.parser inner s = some (t, r) → ∃ e, Origin p s t r e

section NonAny

variable {inner : Level} {t : TypeExpr} (hinner : inner.IsTraced)

theorem kept_withMark_of {e u : TypeExpr} (hkeyword : e.isKeyword = false) (he : e.kept = u)
    (b : Bool) : (e.withMark b).kept = u.withMark b := by
  rw [TypeExpr.kept_withMark hkeyword, he]

theorem origin_number {b : Bool} {u : TypeExpr} {x : List Char}
    (h : integerType s = some (u, x) ∨ floatType s = some (u, x))
    (hx : tokens x = markIf b ++ tokens r) :
    ∃ e, Origin .plain s (u.withMark b) r e ∧ e.tokens.head? = (tokens s).head? := by
  obtain ⟨n, hn, rfl, hs⟩ := number_eq_some h
  have hkept : n ∉ keywordTypes ∧ keptName n = n := by
    have hall : ∀ n ∈ basicTypes, n ∉ keywordTypes ∧ keptName n = n := by decide +kernel
    exact hall n hn
  have hname : (TypeExpr.named n).kept = .named n := by rw [TypeExpr.kept, hkept.2]
  refine ⟨(TypeExpr.named n).withMark b, ⟨.name (.inl hn) b fun _ => List.not_mem_nil,
    kept_withMark_of (TypeExpr.isKeyword_named_false hkept.1) hname b, .mark (.of_eq hs) hx⟩, ?_⟩
  obtain ⟨a, us, hus, -⟩ := (TypeExpr.named n).exists_opens
  have hwords : wordsOf n.toList = a :: us := hus
  rw [TypeExpr.tokens_withMark, hus, hs, hwords]
  rfl

theorem origin_keyword {ws : List String} (hws : ws ⊆ keywordTypes)
    (h : firstOf (ws.map keywordType) s = some (t, r)) :
    ∃ e, Origin .plain s t r e ∧ e.tokens.head? = (tokens s).head? := by
  obtain ⟨w, hw, b, rfl, hs⟩ := keywordType_eq_some hws h
  obtain ⟨hspelled, -, hword⟩ := isSpelled_of_keyword hw
  have htokens : ((TypeExpr.named w).withMark b).tokens = .word w :: markIf b := by
    rw [TypeExpr.tokens_withMark, TypeExpr.tokens, wordsOf_of_isWord hword]
    rfl
  refine ⟨(TypeExpr.named w).withMark b, ⟨.name hspelled b fun _ => List.not_mem_nil,
    TypeExpr.kept_keyword hw b, .of_eq ?_⟩, ?_⟩
  · rw [hs, htokens]
    rfl
  · rw [hs, htokens]
    rfl

/-- A name that is read after all keyword types were refused is none of them. -/
theorem origin_name {b : Bool} {u : TypeExpr} {x : List Char}
    (hbefore : firstOf (keywordsBefore.map keywordType) s = none)
    (hafter : firstOf (keywordsAfter.map keywordType) s = none)
    (h : namedType s = some (u, x)) (hx : tokens x = markIf b ++ tokens r) :
    ∃ e, Origin .plain s (u.withMark b) r e ∧ e.tokens.head? = (tokens s).head? := by
  obtain ⟨n, hn, rfl⟩ := map_eq_some h
  obtain ⟨w, hword, hname, hs⟩ := identifier_eq_some hn
  have hhead : (tokens s).head? = some (.word w) := by rw [hs]; rfl
  have hnot : w ∉ keywordTypes := by
    intro hmem
    rcases List.mem_append.1 hmem with hmem | hmem
    · exact notMem_of_keywordType_eq_none keywordsBefore_subset hbefore hhead hmem
    · exact notMem_of_keywordType_eq_none keywordsAfter_subset hafter hhead hmem
  have hspelled : IsSpelled w := .inr ⟨hword, by rw [hname]; rfl⟩
  have htokens : (TypeExpr.named w).tokens = [.word w] := wordsOf_of_isWord hword
  have hkept : (TypeExpr.named w).kept = .named n := by
    rw [TypeExpr.kept, keptName_of_nameOf? hname]
  refine ⟨(TypeExpr.named w).withMark b, ⟨.name hspelled b fun _ => List.not_mem_nil,
    kept_withMark_of (TypeExpr.isKeyword_named_false hnot) hkept b,
    .mark (.of_eq (by rw [hs, htokens]; rfl)) hx⟩, ?_⟩
  rw [TypeExpr.tokens_withMark, htokens, hs]
  rfl

include hinner

theorem origin_genericType {kind : GenericKind} {p : Place} (hw : IsWord kind.tag)
    (h : genericType kind (p.parser inner) s = some (t, r)) :
    ∃ e, t = .generic kind [e.kept] ∧ Fits p e ∧ Covers (TypeExpr.generic kind [e]).tokens s r ∧
      (tokens s).head? = some (.word kind.tag) := by
  obtain ⟨u, v, hu, h⟩ := bind_eq_some h
  cases h
  obtain ⟨x, y, hs, hp, hy⟩ := bracketed_eq_some hw hu
  obtain ⟨e, he⟩ := hinner p x u y hp
  refine ⟨e, by rw [he.kept], he.fits, ?_, by rw [hs]; rfl⟩
  rw [TypeExpr.tokens_generic]
  exact .bracketed hs he.covers hy

theorem origin_recordType (h : recordType inner s = some (t, r)) :
    ∃ k v, t = .generic .record [k.kept, v.kept] ∧ Fits .key k ∧ Fits .type v ∧
      Covers (TypeExpr.generic .record [k, v]).tokens s r ∧
      (tokens s).head? = some (.word (GenericKind.tag .record)) := by
  obtain ⟨x, y, hs, hp, hy⟩ := bracketed_eq_some (by decide) h
  obtain ⟨t₁, x₁, h₁, hp⟩ := bind_eq_some hp
  obtain ⟨_, x₂, hcomma, hp⟩ := bind_eq_some hp
  obtain ⟨t₂, x₃, h₂, hp⟩ := bind_eq_some hp
  cases hp
  obtain ⟨k, hk⟩ := hinner .key x t₁ x₁ h₁
  obtain ⟨v, hv⟩ := hinner .type x₂ t₂ y h₂
  refine ⟨k, v, by rw [hk.kept, hv.kept], hk.fits, hv.fits, ?_, by rw [hs]; rfl⟩
  have hbody : Covers (k.tokens ++ ([Token.mark ','] ++ v.tokens)) x y :=
    .trans hk.covers (.trans (.of_eq (mark_eq_some (m := ",") rfl (by decide) hcomma)) hv.covers)
  have hall := Covers.bracketed hs hbody hy
  rw [TypeExpr.tokens_record]
  simpa using hall

omit hinner in
theorem origin_generic {kind : GenericKind} {ts : List TypeExpr} {b : Bool} {x : List Char}
    (hfits : Fits .plain ((TypeExpr.generic kind ts).withMark b))
    (hcovers : Covers (TypeExpr.generic kind ts).tokens s x)
    (hx : tokens x = markIf b ++ tokens r)
    (hhead : (tokens s).head? = some (.word kind.tag)) :
    ∃ e, Origin .plain s ((TypeExpr.generic kind ts).kept.withMark b) r e ∧
      e.tokens.head? = (tokens s).head? := by
  refine ⟨_, ⟨hfits, TypeExpr.kept_withMark rfl b, .mark hcovers hx⟩, ?_⟩
  rw [TypeExpr.tokens_withMark, hhead]
  rfl

theorem origin_list {kind : GenericKind} (hk : kind = .sequence ∨ kind = .frozenArray)
    (hw : IsWord kind.tag) (h : markable (genericType kind (typeExpr inner)) s = some (t, r)) :
    ∃ e, Origin .plain s t r e ∧ e.tokens.head? = (tokens s).head? := by
  obtain ⟨u, x, b, hu, rfl, hx⟩ := markable_eq_some h
  obtain ⟨e, rfl, hfits, hcovers, hhead⟩ := origin_genericType hinner (p := .type) hw hu
  exact origin_generic (.list hk hfits b) hcovers hx hhead

theorem origin_promise (h : genericType .promise (returnType inner) s = some (t, r)) :
    ∃ e, Origin .plain s t r e ∧ e.tokens.head? = (tokens s).head? := by
  obtain ⟨e, rfl, hfits, hcovers, hhead⟩ :=
    origin_genericType hinner (p := .result) (by decide) h
  exact origin_generic (b := false) (.promise hfits) hcovers rfl hhead

theorem origin_record (h : markable (recordType inner) s = some (t, r)) :
    ∃ e, Origin .plain s t r e ∧ e.tokens.head? = (tokens s).head? := by
  obtain ⟨u, x, b, hu, rfl, hx⟩ := markable_eq_some h
  obtain ⟨k, v, rfl, hk, hv, hcovers, hhead⟩ := origin_recordType hinner hu
  rw [← TypeExpr.kept_record]
  exact origin_generic (.record hk hv b) hcovers hx hhead

/-- **Any type but `any` and a union has an origin**, which starts with the word that the text
starts with. -/
theorem origin_nonAnyType (h : nonAnyType inner s = some (t, r)) :
    ∃ e, Origin .plain s t r e ∧ e.tokens.head? = (tokens s).head? := by
  rcases orElse_eq_some h with h | ⟨-, h⟩
  · exact origin_promise hinner h
  rcases orElse_eq_some h with h | ⟨-, h⟩
  · obtain ⟨u, x, b, hu, rfl, hx⟩ := markable_eq_some h
    exact origin_number (.inl hu) hx
  rcases orElse_eq_some h with h | ⟨-, h⟩
  · obtain ⟨u, x, b, hu, rfl, hx⟩ := markable_eq_some h
    exact origin_number (.inr hu) hx
  rcases orElse_eq_some h with h | ⟨hbefore, h⟩
  · exact origin_keyword keywordsBefore_subset h
  rcases orElse_eq_some h with h | ⟨-, h⟩
  · exact origin_list hinner (.inl rfl) (by decide) h
  rcases orElse_eq_some h with h | ⟨hafter, h⟩
  · exact origin_keyword keywordsAfter_subset h
  rcases orElse_eq_some h with h | ⟨-, h⟩
  · exact origin_list hinner (.inr rfl) (by decide) h
  rcases orElse_eq_some h with h | ⟨-, h⟩
  · exact origin_record hinner h
  · obtain ⟨u, x, b, hu, rfl, hx⟩ := markable_eq_some h
    exact origin_name hbefore hafter hu hx

end NonAny

/-! ## Places -/

/-- A type that may stand everywhere stands at a place, where it starts with no bare word. -/
theorem Fits.at_place {p : Place} {e : TypeExpr} (h : Fits .plain e)
    (hbare : ∀ w ∈ p.bare, e.tokens.head? ≠ some (.word w)) : Fits p e := by
  cases h with
  | @name _ n hn b hb =>
    refine .name hn b fun _ hmem => hbare n hmem ?_
    have hword : IsWord n := by
      have hall : ∀ n ∈ p.bare, IsWord n := by cases p <;> decide
      exact hall n hmem
    rw [TypeExpr.tokens_withMark, TypeExpr.tokens, wordsOf_of_isWord hword]
    rfl
  | promise h => exact .promise h
  | list hk h b => exact .list hk h b
  | record hk hv b => exact .record hk hv b
  | union hp h b => cases hp

theorem origin_bare {p : Place} {t : TypeExpr} (hw : w ∈ p.bare)
    (h : (do keyword w; return .named w : Parser TypeExpr) s = some (t, r)) :
    ∃ e, Origin p s t r e := by
  obtain ⟨hword, hspelled, hkept⟩ : IsWord w ∧ IsSpelled w ∧ keptName w = w := by
    have hall : ∀ w ∈ p.bare, IsWord w ∧ IsSpelled w ∧ keptName w = w := by
      cases p <;> decide +kernel
    exact hall w hw
  obtain ⟨_, x, hx, h⟩ := bind_eq_some h
  cases h
  have htokens : (TypeExpr.named w).tokens = [.word w] := wordsOf_of_isWord hword
  exact ⟨.named w, .name hspelled false nofun, by rw [TypeExpr.kept, hkept],
    .of_eq (by rw [keyword_eq_some hword hx, htokens]; rfl)⟩

theorem head?_ne_of_keyword_eq_none {t : TypeExpr} (hw : IsWord w)
    (h : (do keyword w; return t : Parser TypeExpr) s = none) :
    (tokens s).head? ≠ some (.word w) := by
  intro hhead
  rw [bind_apply, keyword_apply hw, if_pos hhead] at h
  cases h

section Level

variable {n : Nat} {t : TypeExpr}

/-- Extended attributes that are there are in front of the tokens of the type. -/
theorem Covers.attributed {ts : List Token} {names : List String} {x : List Char}
    (h : attributesOf (levelAt n) s = some (names, x)) (hcovers : Covers ts x r) :
    Covers ts s r := by
  intro hs
  have hnone := attributesOf_apply n fun hhead => hs (List.mem_of_mem_head? hhead)
  obtain ⟨-, rfl⟩ := Prod.mk.inj (Option.some.inj (h.symm.trans hnone))
  exact hcovers hs

def Level.TracesUnions (inner : Level) : Prop :=
  ∀ s t r, inner.union s = some (t, r) → ∃ ms, (∀ m ∈ ms, Fits .member m) ∧
    t = (TypeExpr.union ms).kept ∧ Covers (TypeExpr.union ms).tokens s r

def Level.TracesPlain (inner : Level) : Prop :=
  ∀ s t r, inner.nonAny s = some (t, r) →
    ∃ e, Origin .plain s t r e ∧ e.tokens.head? = (tokens s).head?

variable (hunion : (levelAt n).TracesUnions) (hplain : (levelAt n).TracesPlain)

include hplain

theorem origin_nonAny {p : Place} (hbare : ∀ w ∈ p.bare, (tokens s).head? ≠ some (.word w))
    (h : (levelAt n).nonAny s = some (t, r)) : ∃ e, Origin p s t r e := by
  obtain ⟨e, he, hhead⟩ := hplain s t r h
  exact ⟨e, he.fits.at_place (hhead ▸ hbare), he.kept, he.covers⟩

include hunion

omit hplain in
theorem origin_unionType {p : Place} (hp : p.takesUnion = true)
    (h : unionType (levelAt n) s = some (t, r)) : ∃ e, Origin p s t r e := by
  obtain ⟨u, x, b, hu, rfl, hx⟩ := markable_eq_some h
  obtain ⟨ms, hms, rfl, hcovers⟩ := hunion s u x hu
  exact ⟨(TypeExpr.union ms).withMark b, .union hp hms b, TypeExpr.kept_withMark rfl b,
    .mark hcovers hx⟩

theorem origin_typeExpr {p : Place} (hp : p.takesUnion = true)
    (hbare : ∀ w ∈ p.bare, w ≠ "any" → (tokens s).head? ≠ some (.word w))
    (hany : "any" ∈ p.bare) (h : typeExpr (levelAt n) s = some (t, r)) :
    ∃ e, Origin p s t r e := by
  rcases orElse_eq_some h with h | ⟨hnone, h⟩
  · exact origin_bare hany h
  rcases orElse_eq_some h with h | ⟨-, h⟩
  · refine origin_nonAny hplain (fun w hw => ?_) h
    by_cases he : w = "any"
    · exact he ▸ head?_ne_of_keyword_eq_none (by decide) hnone
    · exact hbare w hw he
  · exact origin_unionType hunion hp h

/-- **All types that are read at the places of a level have an origin.** -/
theorem isTraced_levelAt : (levelAt n).IsTraced := by
  intro p s t r h
  cases p with
  | plain => exact origin_nonAny hplain nofun h
  | member =>
    rcases orElse_eq_some h with h | ⟨-, h⟩
    · obtain ⟨names, x, hnames, h⟩ := bind_eq_some h
      obtain ⟨e, he⟩ := origin_nonAny (p := .member) hplain nofun h
      exact ⟨e, he.fits, he.kept, .attributed hnames he.covers⟩
    · exact origin_unionType hunion rfl h
  | type =>
    exact origin_typeExpr hunion hplain rfl
      (fun w hw hne => absurd (List.mem_singleton.1 hw) hne) (by decide) h
  | result =>
    rcases orElse_eq_some h with h | ⟨hnone, h⟩
    · exact origin_bare (by decide) h
    · refine origin_typeExpr hunion hplain rfl (fun w hw hne => ?_) (by decide) h
      simp only [Place.bare, List.mem_cons, List.not_mem_nil, or_false] at hw
      exact hw.resolve_right hne ▸ head?_ne_of_keyword_eq_none (by decide) hnone
  | key =>
    have hwords : ∀ v ∈ Place.bare .key, IsWord v := by decide
    rcases orElse_eq_some h with h | ⟨hnone, h⟩
    · obtain ⟨w, hw, h⟩ := firstOf_eq_some h
      exact origin_bare hw h
    · refine origin_nonAny hplain (fun w hw => ?_) h
      exact head?_ne_of_keyword_eq_none (hwords w hw) (firstOf_eq_none_iff.1 hnone w hw)

end Level

/-! ## Levels -/

section Members

variable {inner : Level} (hinner : inner.IsTraced)

include hinner

/-- The members of a union after the first.  By induction on what a repetition takes. -/
theorem origin_members (s : List Char) :
    ∃ ms, (∀ m ∈ ms, Fits .member m) ∧
      (items (keyword "or" *> unionMember inner) s).1 = ms.map TypeExpr.kept ∧
      Covers (memberTokens ms) s (items (keyword "or" *> unionMember inner) s).2 := by
  fun_induction items (keyword "or" *> unionMember inner) s with
  | case1 s h => exact ⟨[], List.forall_mem_nil _, rfl, .of_eq rfl⟩
  | case2 s a r h _ as t has ih =>
    rw [has] at ih
    obtain ⟨ms, hms, hkept, hcovers⟩ := ih
    rw [seqRight_eq_bind] at h
    obtain ⟨_, x, hx, h⟩ := bind_eq_some h
    obtain ⟨m, hm⟩ := hinner .member x a r h
    refine ⟨m :: ms, List.forall_mem_cons.2 ⟨hm.fits, hms⟩, ?_, ?_⟩
    · rw [List.map_cons, hm.kept, ← hkept]
    · have hor : Covers [.word "or"] s x := .of_eq (keyword_eq_some (by decide) hx)
      have hall := hor.trans (hm.covers.trans hcovers)
      simpa [memberTokens] using hall
  | case3 s a r h _ => exact ⟨[], List.forall_mem_nil _, rfl, .of_eq rfl⟩

/-- **The unions of a level have an origin**, where the types of the level below have. -/
theorem origin_unionBody {t : TypeExpr} (h : unionBody inner s = some (t, r)) :
    ∃ ms, (∀ m ∈ ms, Fits .member m) ∧ t = (TypeExpr.union ms).kept ∧
      Covers (TypeExpr.union ms).tokens s r := by
  obtain ⟨_, x, hopen, h⟩ := bind_eq_some h
  obtain ⟨ts, y, hlist, h⟩ := bind_eq_some h
  obtain ⟨_, z, hclose, h⟩ := bind_eq_some h
  cases h
  obtain ⟨ms, hms, rfl, hcovers⟩ : ∃ ms, (∀ m ∈ ms, Fits .member m) ∧
      ts = ms.map TypeExpr.kept ∧
      Covers ([.word "or"].intercalate (TypeExpr.tokensOf ms)) x y := by
    rcases orElse_eq_some hlist with hlist | ⟨-, hlist⟩
    · obtain ⟨u, v, hu, hlist⟩ := bind_eq_some hlist
      obtain ⟨us, k, hus, hlist⟩ := bind_eq_some hlist
      cases hlist
      have hitems : items (keyword "or" *> unionMember inner) v = (us, y) := Option.some.inj hus
      obtain ⟨m, hm⟩ := hinner .member x u v hu
      obtain ⟨ms, hms, hkept, hcovers⟩ := origin_members hinner v
      rw [hitems] at hkept hcovers
      refine ⟨m :: ms, List.forall_mem_cons.2 ⟨hm.fits, hms⟩, ?_, ?_⟩
      · rw [List.map_cons, hm.kept, ← hkept]
      · rw [intercalate_eq_append]
        exact hm.covers.trans hcovers
    · cases hlist
      exact ⟨[], List.forall_mem_nil _, rfl, .of_eq rfl⟩
  refine ⟨ms, hms, (TypeExpr.kept_union ms).symm, ?_⟩
  have hmark : Covers [.mark '('] s x := .of_eq (mark_eq_some (m := "(") rfl (by decide) hopen)
  have hend : Covers [.mark ')'] y r := .of_eq (mark_eq_some (m := ")") rfl (by decide) hclose)
  exact hmark.trans (hcovers.trans hend)

end Members

/-- By induction on the levels. -/
theorem traces_levelAt (n : Nat) : (levelAt n).TracesUnions ∧ (levelAt n).TracesPlain := by
  induction n with
  | zero => exact ⟨fun _ _ _ h => (nomatch h), fun _ _ _ h => (nomatch h)⟩
  | succ n ih =>
    have hinner := isTraced_levelAt ih.1 ih.2
    exact ⟨fun _ _ _ h => origin_unionBody hinner h, fun _ _ _ h => origin_nonAnyType hinner h⟩

/-- **What is read at a place was written so that it may stand there.** -/
theorem exists_origin {n : Nat} {p : Place} {t : TypeExpr}
    (h : p.parser (levelAt n) s = some (t, r)) : ∃ e, Origin p s t r e :=
  isTraced_levelAt (traces_levelAt n).1 (traces_levelAt n).2 p s t r h

theorem exists_origin_attributedType {n : Nat} {t : TypeExpr}
    (h : attributedType (levelAt n) s = some (t, r)) : ∃ e, Origin .type s t r e := by
  obtain ⟨names, x, hnames, h⟩ := bind_eq_some h
  obtain ⟨e, he⟩ := exists_origin (p := .type) h
  exact ⟨e, he.fits, he.kept, .attributed hnames he.covers⟩

end IdlDocs.Idl
