import IdlDocs.Proofs.Idl.Types.Reading

/-!
# Reading types at their places

What the places of the grammar add to a type: the words that take no nullable mark there, and
unions.

* `gives_bare`, `gives_place`: bare words, and all other types that start with a word.
* `gives_members`, `gives_union`: the members of a union, and unions.
* `IsReadAt`: what it means that a type is read at a place, with a lemma for each form of types.
* `gives_of_fits`: **a type that may be written at a place is read there, as what is kept of it**,
  by every level that has as many brackets as the type has tokens.
-/

namespace IdlDocs.Idl

open Text Text.Parser

variable {p : Place} {s : List Char} {ts us : List Token} {w : String} {n : Nat}

/-! ## Types that start with a word -/

theorem Gives.of_eq {α : Type} {p q : Parser α} {a : α} (h : p s = q s) (hq : Gives q s a ts) :
    Gives p s a ts := by
  obtain ⟨r, hr, hts⟩ := hq
  exact ⟨r, h.trans hr, hts⟩

theorem attributesOf_bind {α : Type} {f : List String → Parser α}
    (h : (tokens s).head? ≠ some (.mark '[')) : (attributesOf (levelAt n) >>= f) s = f [] s := by
  rw [bind_apply, attributesOf_apply n h]
  rfl

theorem keyword_bind_eq_none {α : Type} {f : Unit → Parser α} (hw : IsWord w)
    (h : (tokens s).head? ≠ some (.word w)) : (keyword w >>= f) s = none :=
  bind_eq_none (keyword_eq_none hw h) f

theorem gives_word {t : TypeExpr} (hw : IsWord w) (h : tokens s = .word w :: ts) :
    Gives (do keyword w; return t) s t ts :=
  (gives_keyword hw h).bind fun _ hr => .pure hr

/-- The words that take no nullable mark at a place. -/
theorem gives_bare {inner : Level} (hw : w ∈ p.bare) (h : tokens s = .word w :: ts) :
    Gives (p.parser inner) s (.named w) ts := by
  have hany (h : tokens s = .word "any" :: ts) : Gives (typeExpr inner) s (.named "any") ts :=
    .left (gives_word (by decide) h)
  cases p with
  | plain => cases hw
  | member => cases hw
  | type =>
    obtain rfl := List.mem_singleton.1 hw
    exact hany h
  | result =>
    simp only [Place.bare, List.mem_cons, List.not_mem_nil, or_false] at hw
    rcases hw with rfl | rfl
    · exact .left (gives_word (by decide) h)
    · exact .right (keyword_bind_eq_none (by decide) (by rw [h]; simp)) (hany h)
  | key =>
    have hwords : ∀ v ∈ Place.bare .key, IsWord v := by decide
    refine .left (gives_firstOf hw (gives_word (hwords w hw) h) fun v hv hne => ?_)
    refine keyword_bind_eq_none (hwords v hv) fun hhead => hne ?_
    rw [h] at hhead
    exact (Token.word.inj (Option.some.inj hhead)).symm

/-- A type that stands at every place, where it starts with none of these words. -/
theorem gives_place {t : TypeExpr} (h : Gives (levelAt n).nonAny s t ts)
    (hs : (tokens s).head? = some (.word w)) (hw : w ∉ p.bare) :
    Gives (p.parser (levelAt n)) s t ts := by
  have hbare {v : String} (hv : w ≠ v) : (tokens s).head? ≠ some (.word v) := by
    rw [hs]
    exact fun he => hv (Token.word.inj (Option.some.inj he))
  have htype (hany : w ≠ "any") : Gives (typeExpr (levelAt n)) s t ts :=
    .right (keyword_bind_eq_none (by decide) (hbare hany)) (.left h)
  cases p with
  | plain => exact h
  | member =>
    refine .left (.of_eq (attributesOf_bind ?_) h)
    rw [hs]
    exact nofun
  | type => exact htype fun he => hw (List.mem_singleton.2 he)
  | result =>
    simp only [Place.bare, List.mem_cons, List.not_mem_nil, or_false, not_or] at hw
    exact .right (keyword_bind_eq_none (by decide) (hbare hw.1)) (htype hw.2)
  | key =>
    have hwords : ∀ v ∈ Place.bare .key, IsWord v := by decide
    refine .right (firstOf_eq_none_iff.2 fun v hv => ?_) h
    exact keyword_bind_eq_none (hwords v hv) (hbare fun he => hw (he ▸ hv))

/-! ## Unions -/

theorem nonAny_eq_none {c : Char} (h : (tokens s).head? = some (.mark c)) :
    (levelAt n).nonAny s = none := by
  cases n with
  | zero => rfl
  | succ n => exact nonAnyType_eq_none h

theorem union_eq_none (h : (tokens s).head? ≠ some (.mark '(')) : (levelAt n).union s = none := by
  cases n with
  | zero => rfl
  | succ n => exact bind_eq_none (mark_eq_none (m := "(") rfl (by decide) h) _

def memberTokens (ts : List TypeExpr) : List Token := ts.flatMap fun t => .word "or" :: t.tokens

theorem intercalate_eq_append (t : TypeExpr) (ts : List TypeExpr) :
    [.word "or"].intercalate (TypeExpr.tokensOf (t :: ts)) = t.tokens ++ memberTokens ts := by
  induction ts generalizing t with
  | nil => simp [TypeExpr.tokensOf, memberTokens]
  | cons u ts ih =>
    rw [TypeExpr.intercalate_cons_cons, ih]
    rfl

theorem stops_memberTokens (ts : List TypeExpr) (us : List Token) :
    Stops (memberTokens ts ++ .mark ')' :: us) := by
  cases ts with
  | nil => exact (by decide : Token.stops (.mark ')') = true)
  | cons t ts => exact (by decide : Token.stops (.word "or") = true)

section Many

variable {α : Type} {item : Parser α} {a : α}

theorem gives_many_nil (h : item s = none) (hs : tokens s = ts) : Gives (many item) s [] ts :=
  .of_same (congrArg some (items_of_none h)) hs

/-- An item that takes at least one token, and the items after it. -/
theorem gives_many_cons {as : List α} (h : Gives item s a us) (hne : us ≠ tokens s)
    (hrest : ∀ r, tokens r = us → Gives (many item) r as ts) :
    Gives (many item) s (a :: as) ts := by
  obtain ⟨r, hr, hus, k, rfl⟩ := h
  have hlt : (after^[k] s).length < s.length :=
    (length_iterate_after s k).resolve_left fun he => hne (he ▸ hus.symm)
  obtain ⟨x, hx, hts, l, rfl⟩ := hrest _ hus
  refine ⟨_, congrArg some ?_, hts, l + k, (Function.iterate_add_apply ..).symm⟩
  rw [items_of_some hr hlt, Option.some.inj hx]

end Many

/-- By induction on the members: each one stands behind a word. -/
theorem gives_members {item : Parser TypeExpr} {members : List TypeExpr}
    (hitem : ∀ t ∈ members, ∀ r vs, Stops vs → tokens r = t.tokens ++ vs → Gives item r t.kept vs)
    (h : tokens s = memberTokens members ++ .mark ')' :: us) :
    Gives (many (keyword "or" *> item)) s (members.map TypeExpr.kept) (.mark ')' :: us) := by
  have hor : IsWord "or" := by decide
  induction members generalizing s with
  | nil =>
    refine gives_many_nil ?_ h
    rw [seqRight_eq_bind]
    exact keyword_bind_eq_none hor (by rw [h]; exact nofun)
  | cons t members ih =>
    have hword : tokens s =
        .word "or" :: (t.tokens ++ (memberTokens members ++ .mark ')' :: us)) := by
      rw [h]
      simp [memberTokens]
    have hfirst : Gives (keyword "or" *> item) s t.kept
        (memberTokens members ++ .mark ')' :: us) := by
      rw [seqRight_eq_bind]
      exact (gives_keyword hor hword).bind fun r hr =>
        hitem t List.mem_cons_self r _ (stops_memberTokens members us) hr
    refine gives_many_cons hfirst (fun he => ?_) fun r hr =>
      ih (fun u hu => hitem u (List.mem_cons_of_mem t hu)) hr
    have hlength := congrArg List.length (he.trans hword)
    simp only [List.length_cons, List.length_append] at hlength
    omega

theorem gives_unionBody {members : List TypeExpr}
    (hitem : ∀ t ∈ members, ∀ r vs, Stops vs → tokens r = t.tokens ++ vs →
      Gives (unionMember (levelAt n)) r t.kept vs)
    (h : tokens s = .mark '(' ::
      ([.word "or"].intercalate (TypeExpr.tokensOf members) ++ .mark ')' :: us)) :
    Gives (unionBody (levelAt n)) s (.union (members.map TypeExpr.kept)) us := by
  refine (gives_mark (m := "(") rfl (by decide) h).bind fun r hr => ?_
  have hlist : Gives (list0 (unionMember (levelAt n)) (keyword "or")) r
      (members.map TypeExpr.kept) (.mark ')' :: us) := by
    cases members with
    | nil =>
      have hhead : (tokens r).head? = some (.mark ')') := by rw [hr]; rfl
      have hnone : unionMember (levelAt n) r = none := by
        refine orElse_eq_none ?_ (markable_eq_none (union_eq_none ?_))
        · rw [attributesOf_bind (by rw [hhead]; decide)]
          exact nonAny_eq_none hhead
        · rw [hhead]
          decide
      exact .right (bind_eq_none hnone _) (.pure hr)
    | cons t members =>
      rw [intercalate_eq_append, List.append_assoc] at hr
      refine .left ((hitem t List.mem_cons_self r _ (stops_memberTokens members us) hr).bind
        fun x hx => ?_)
      exact (gives_members (fun u hu => hitem u (List.mem_cons_of_mem t hu)) hx).bind
        fun _ hy => .pure hy
  exact hlist.bind fun _ hx => (gives_mark (m := ")") rfl (by decide) hx).bind fun _ hy => .pure hy

theorem gives_union {t : TypeExpr} {b : Bool} (hp : p.takesUnion = true) (hs : Stops ts)
    (hhead : (tokens s).head? = some (.mark '('))
    (h : Gives (levelAt n).union s t (markIf b ++ ts)) :
    Gives (p.parser (levelAt n)) s (t.withMark b) ts := by
  have hword (w : String) : (tokens s).head? ≠ some (.word w) := by
    rw [hhead]
    exact nofun
  have hunion : Gives (unionType (levelAt n)) s (t.withMark b) ts := gives_markable hs h
  have htype : Gives (typeExpr (levelAt n)) s (t.withMark b) ts :=
    .right (keyword_bind_eq_none (by decide) (hword _)) (.right (nonAny_eq_none hhead) hunion)
  cases p with
  | plain => cases hp
  | member =>
    refine .right ?_ hunion
    rw [attributesOf_bind (by rw [hhead]; decide)]
    exact nonAny_eq_none hhead
  | type => exact htype
  | result => exact .right (keyword_bind_eq_none (by decide) (hword _)) htype
  | key => cases hp

/-! ## All types -/

theorem length_le_intercalate (sep : Token) {t : TypeExpr} {ts : List TypeExpr} (h : t ∈ ts) :
    t.tokens.length ≤ ([sep].intercalate (TypeExpr.tokensOf ts)).length := by
  induction ts with
  | nil => cases h
  | cons u ts ih =>
    cases ts with
    | nil =>
      obtain rfl := List.mem_singleton.1 h
      simp [TypeExpr.tokensOf]
    | cons v ts =>
      rw [TypeExpr.intercalate_cons_cons, List.length_append, List.length_cons]
      rcases List.mem_cons.1 h with rfl | h
      · omega
      · have := ih h
        omega

/-- A name at a place: a bare word, or a name that takes its mark. -/
theorem gives_name {m : String} (hm : IsSpelled m) {b : Bool} (hb : b = true → m ∉ p.bare)
    (hs : Stops ts) (h : tokens s = ((TypeExpr.named m).withMark b).tokens ++ ts) :
    Gives (p.parser (levelAt (n + 1))) s ((TypeExpr.named m).withMark b).kept ts := by
  rw [TypeExpr.tokens_withMark, List.append_assoc, TypeExpr.tokens] at h
  by_cases hbasic : m ∈ basicTypes
  · obtain ⟨w, hw, us, hus⟩ := exists_leadWord hbasic
    have hbare : w ∉ p.bare := by
      have hall : ∀ w ∈ leadWords, w ∉ p.bare := by cases p <;> decide
      exact hall w hw
    have hkept : ((TypeExpr.named m).withMark b).kept = (TypeExpr.named m).withMark b := by
      have hall : ∀ m ∈ basicTypes, m ∉ keywordTypes ∧ keptName m = m := by decide +kernel
      obtain ⟨hnot, hname⟩ := hall m hbasic
      rw [TypeExpr.kept_withMark (TypeExpr.isKeyword_named_false hnot), TypeExpr.kept, hname]
    rw [hkept]
    exact gives_place (gives_basicType hbasic hs h) (by rw [h, hus]; rfl) hbare
  · obtain ⟨hword, hname⟩ := hm.resolve_left hbasic
    rw [wordsOf_of_isWord hword] at h
    by_cases hbare : m ∈ p.bare
    · have hfalse : b = false := (Bool.not_eq_true b).mp fun ht => hb ht hbare
      subst hfalse
      have hkept : keptName m = m := by
        have hall : ∀ m ∈ p.bare, keptName m = m := by cases p <;> decide +kernel
        exact hall m hbare
      have hread : Gives (p.parser (levelAt (n + 1))) s (.named m) ts := gives_bare hbare h
      rwa [TypeExpr.withMark, TypeExpr.kept, hkept]
    · refine gives_place ?_ (by rw [h]; rfl) hbare
      by_cases hkeyword : m ∈ keywordTypes
      · rw [TypeExpr.kept_keyword hkeyword]
        exact gives_keywordName hkeyword hs h
      · obtain ⟨k, hk⟩ := Option.isSome_iff_exists.1 hname
        have hsize : m ∉ sizeWords := by
          have hall : ∀ w ∈ sizeWords, w ∈ basicTypes := by decide
          exact fun hmem => hbasic (hall m hmem)
        rw [TypeExpr.kept_withMark (TypeExpr.isKeyword_named_false hkeyword), TypeExpr.kept,
          keptName_of_nameOf? hk]
        exact gives_identifierName hk hkeyword hsize hs h

/-- A type is read at a place as what is kept of it, by every level that has as many brackets as
the type has tokens. -/
def IsReadAt (p : Place) (t : TypeExpr) : Prop :=
  ∀ ⦃n : Nat⦄ ⦃s : List Char⦄ ⦃ts : List Token⦄, t.tokens.length ≤ n → tokens s = t.tokens ++ ts →
    Stops ts → Gives (p.parser (levelAt n)) s t.kept ts

namespace IsReadAt

theorem tag_notMem_bare {k : GenericKind} (hk : k ∈ writtenKinds) (p : Place) :
    k.tag ∉ p.bare := by
  have hall : ∀ k ∈ writtenKinds, k.tag ∉ p.bare := by cases p <;> decide
  exact hall k hk

theorem stops_mark {c : Char} (hc : Token.stops (.mark c) = true) (ts : List Token) :
    Stops (.mark c :: ts) := hc

/-- A level of as many brackets as there are tokens has one bracket more than another one. -/
theorem exists_level {t : TypeExpr} {n : Nat} (hn : t.tokens.length ≤ n) : ∃ m, n = m + 1 := by
  obtain ⟨a, xs, hopens, -⟩ := t.exists_opens
  rw [hopens, List.length_cons] at hn
  exact ⟨n - 1, by omega⟩

theorem named {m : String} (hm : IsSpelled m) {b : Bool} (hb : b = true → m ∉ p.bare) :
    IsReadAt p ((TypeExpr.named m).withMark b) := by
  intro n s ts hn htokens hs
  obtain ⟨n, rfl⟩ := exists_level hn
  exact gives_name hm hb hs htokens

theorem promise {t : TypeExpr} (h : IsReadAt .result t) :
    IsReadAt p (.generic .promise [t]) := by
  intro n s ts hn htokens hs
  obtain ⟨n, rfl⟩ := exists_level hn
  rw [TypeExpr.tokens_generic] at hn htokens
  simp only [List.length_cons, List.length_append, List.length_nil] at hn
  simp only [List.cons_append, List.append_assoc, List.nil_append] at htokens
  rw [TypeExpr.kept_generic]
  refine gives_place (gives_promise htokens fun r hr => ?_) (by rw [htokens]; rfl)
    (tag_notMem_bare (by decide) p)
  exact h (by omega) hr (stops_mark (by decide) ts)

theorem list {k : GenericKind} (hk : k = .sequence ∨ k = .frozenArray) {t : TypeExpr}
    (h : IsReadAt .type t) (b : Bool) : IsReadAt p ((TypeExpr.generic k [t]).withMark b) := by
  intro n s ts hn htokens hs
  obtain ⟨n, rfl⟩ := exists_level hn
  rw [TypeExpr.tokens_withMark, TypeExpr.tokens_generic] at hn htokens
  simp only [List.length_cons, List.length_append, List.length_nil] at hn
  simp only [List.cons_append, List.append_assoc, List.nil_append] at htokens
  rw [TypeExpr.kept_generic_withMark]
  refine gives_place (gives_list hk hs htokens fun r hr => ?_) (by rw [htokens]; rfl)
    (tag_notMem_bare (mem_writtenKinds_of_list hk) p)
  exact h (by omega) hr (stops_mark (by decide) _)

theorem record {k v : TypeExpr} (hk : IsReadAt .key k) (hv : IsReadAt .type v) (b : Bool) :
    IsReadAt p ((TypeExpr.generic .record [k, v]).withMark b) := by
  intro n s ts hn htokens hs
  obtain ⟨n, rfl⟩ := exists_level hn
  rw [TypeExpr.tokens_withMark, TypeExpr.tokens_record] at hn htokens
  simp only [List.length_cons, List.length_append, List.length_nil] at hn
  simp only [List.cons_append, List.append_assoc, List.nil_append] at htokens
  rw [TypeExpr.kept_record_withMark]
  refine gives_place (gives_record (v.tokens ++ .mark '>' :: (markIf b ++ ts)) hs htokens
    (fun r hr => ?_) fun r hr => ?_) (by rw [htokens]; rfl) (tag_notMem_bare (by decide) p)
  · exact hk (by omega) hr (stops_mark (by decide) _)
  · exact hv (by omega) hr (stops_mark (by decide) _)

theorem union {members : List TypeExpr} (hp : p.takesUnion = true)
    (h : ∀ t ∈ members, IsReadAt .member t) (b : Bool) :
    IsReadAt p ((TypeExpr.union members).withMark b) := by
  intro n s ts hn htokens hs
  obtain ⟨n, rfl⟩ := exists_level hn
  rw [TypeExpr.tokens_withMark, TypeExpr.tokens] at hn htokens
  simp only [List.length_cons, List.length_append, List.length_nil] at hn
  simp only [List.cons_append, List.append_assoc, List.nil_append] at htokens
  rw [TypeExpr.kept_union_withMark]
  refine gives_union hp hs (by rw [htokens]; rfl)
    (gives_unionBody (fun t ht r vs hvs hr => ?_) htokens)
  have hle := length_le_intercalate (.word "or") ht
  exact h t ht (by omega) hr hvs

end IsReadAt

/-- **A type that may be written at a place is read there, as what is kept of it**, by every level
that has as many brackets as the type has tokens. -/
theorem gives_of_fits {t : TypeExpr} (h : Fits p t) : IsReadAt p t := by
  induction h with
  | name hm b hb => exact .named hm hb
  | promise h ih => exact .promise ih
  | list hk h b ih => exact .list hk ih b
  | record hk hv b ihk ihv => exact .record ihk ihv b
  | union hp h b ih => exact .union hp ih b

end IdlDocs.Idl
