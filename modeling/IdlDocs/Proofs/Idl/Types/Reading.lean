import IdlDocs.Proofs.Idl.Types.Kept

/-!
# Reading written types

What the parsers of types give for a text, by its tokens.  A type is given where no alternative in
front of it in the grammar takes the text, so that each form has a lemma for what it gives and a
lemma for what it refuses.

* `Gives`: what a parser gives for a text, and the tokens that it leaves.
* `gives_keyword`, `gives_mark`, `gives_identifier`: the tokens.
* `Stops`: what may follow a type.
* `gives_basicType`, `gives_keywordName`, `gives_identifierName`: the names of types.
* `gives_promise`, `gives_list`, `gives_record`: the generic types.
* `nonAnyType_eq_none`: a type that starts with a mark is a union.
-/

namespace IdlDocs.Idl

open Text Text.Parser

variable {α β : Type} {p q : Parser α} {f : α → Parser β} {a : α} {b : β} {s : List Char}
  {t u : Token} {ts us : List Token} {w m : String} {c : Char}

/-! ## What a parser gives -/

/-- The parser gives the value for the text, and leaves a text with these tokens: the text behind
some of its first tokens. -/
def Gives (p : Parser α) (s : List Char) (a : α) (ts : List Token) : Prop :=
  ∃ r, p s = some (a, r) ∧ tokens r = ts ∧ ∃ k, r = after^[k] s

namespace Gives

theorem of_same (h : p s = some (a, s)) (hs : tokens s = ts) : Gives p s a ts :=
  ⟨s, h, hs, 0, rfl⟩

theorem of_after (h : p s = some (a, after s)) (hs : tokens s = t :: ts) : Gives p s a ts :=
  ⟨after s, h, by rw [tokens_after, hs]; rfl, 1, rfl⟩

theorem pure (h : tokens s = ts) : Gives (Pure.pure a) s a ts := of_same rfl h

theorem bind (hp : Gives p s a ts) (hf : ∀ r, tokens r = ts → Gives (f a) r b us) :
    Gives (p >>= f) s b us := by
  obtain ⟨r, hr, hts, k, rfl⟩ := hp
  obtain ⟨r', hr', hus, l, rfl⟩ := hf _ hts
  exact ⟨_, by rw [bind_apply, hr]; exact hr', hus, l + k, (Function.iterate_add_apply ..).symm⟩

theorem left (hp : Gives p s a ts) : Gives (p <|> q) s a ts := by
  obtain ⟨r, hr, h⟩ := hp
  exact ⟨r, by rw [orElse_apply, hr, Option.some_or], h⟩

theorem right (hp : p s = none) (hq : Gives q s a ts) : Gives (p <|> q) s a ts := by
  obtain ⟨r, hr, h⟩ := hq
  exact ⟨r, by rw [orElse_apply, hp, Option.none_or, hr], h⟩

theorem map {g : α → β} (hp : Gives p s a ts) : Gives (g <$> p) s (g a) ts := by
  obtain ⟨r, hr, h⟩ := hp
  exact ⟨r, by rw [map_apply, hr]; rfl, h⟩

theorem present (hp : Gives p s a ts) : Gives (Parser.present p) s true ts := hp.map.left

/-- A parser that leaves all tokens but the first one leaves what stands behind it. -/
theorem eq_after (hp : Gives p s a (u :: ts)) (hs : tokens s = t :: u :: ts) :
    p s = some (a, after s) := by
  obtain ⟨r, hr, hts, k, rfl⟩ := hp
  have hlength := congrArg List.length hts
  rw [tokens_iterate_after, hs] at hlength
  simp only [List.length_drop, List.length_cons] at hlength
  obtain rfl : k = 1 := by omega
  exact hr

end Gives

theorem bind_eq_none (h : p s = none) (f : α → Parser β) : (p >>= f) s = none := by
  rw [bind_apply, h]
  rfl

theorem orElse_eq_none (hp : p s = none) (hq : q s = none) : (p <|> q) s = none := by
  rw [orElse_apply, hp, hq]
  rfl

theorem orElse_of_none {x : Option (α × List Char)} (hp : p s = none) (hq : q s = x) :
    (p <|> q) s = x := by
  rw [orElse_apply, hp, Option.none_or, hq]

theorem gives_keyword (hw : IsWord w) (h : tokens s = .word w :: ts) : Gives (keyword w) s () ts :=
  .of_after (by rw [keyword_apply hw, h]; exact if_pos rfl) h

theorem keyword_eq_none (hw : IsWord w) (h : (tokens s).head? ≠ some (.word w)) :
    keyword w s = none := by
  rw [keyword_apply hw, if_neg h]

theorem gives_mark (hm : m.toList = [c]) (hc : isWordStart c = false)
    (h : tokens s = .mark c :: ts) : Gives (mark m) s () ts :=
  .of_after (by rw [mark_apply hm hc, h]; exact if_pos rfl) h

theorem mark_eq_none (hm : m.toList = [c]) (hc : isWordStart c = false)
    (h : (tokens s).head? ≠ some (.mark c)) : mark m s = none := by
  rw [mark_apply hm hc, if_neg h]

theorem gives_identifier {n : String} (h : tokens s = .word w :: ts) (hn : nameOf? w = some n) :
    Gives identifier s n ts :=
  .of_after (by rw [identifier_apply, h]; simp [Token.name?, hn]) h

theorem identifier_eq_none (h : (tokens s).head? = some (.mark c)) : identifier s = none := by
  rw [identifier_apply, h]
  rfl

/-! ## Nullable marks -/

def sizeWords : List String := ["long", "short", "float", "double"]

/-- What a type that ends in front of it cannot go on with. -/
def Token.stops : Token → Bool
  | .word w => !sizeWords.contains w
  | .mark c => c != '?' && c != '<'

def Stops (ts : List Token) : Prop := ts.head?.all Token.stops = true

theorem Stops.head?_ne (h : Stops ts) {t : Token} (ht : t.stops = false) : ts.head? ≠ some t := by
  intro he
  unfold Stops at h
  rw [he] at h
  exact Bool.false_ne_true (ht.symm.trans h)

/-- No size and no bracket follows a type, with a mark or without. -/
theorem head?_markIf_append (h : Stops ts) (b : Bool) {t : Token} (ht : t.stops = false)
    (hne : t ≠ .mark '?') : (markIf b ++ ts).head? ≠ some t := by
  cases b with
  | false => exact h.head?_ne ht
  | true =>
    intro he
    exact hne (Option.some.inj he).symm

theorem gives_nullableMark (hs : Stops ts) {b : Bool} (h : tokens s = markIf b ++ ts) :
    Gives nullableMark s b ts := by
  have happly := nullableMark_apply s
  rw [h] at happly
  cases b with
  | true => exact .of_after happly h
  | false =>
    have hne : (markIf false ++ ts).head? ≠ some (.mark '?') := hs.head?_ne rfl
    rw [if_neg hne] at happly
    exact .of_same happly h

theorem gives_markable {p : Parser TypeExpr} {t : TypeExpr} {b : Bool} (hs : Stops ts)
    (h : Gives p s t (markIf b ++ ts)) : Gives (markable p) s (t.withMark b) ts :=
  h.bind fun _ hr => (gives_nullableMark hs hr).bind fun _ hr => .pure hr

theorem markable_eq_none {p : Parser TypeExpr} (h : p s = none) : markable p s = none :=
  bind_eq_none h _

/-! ## Names of types -/

theorem gives_forM {ws : List String} (hws : ∀ w ∈ ws, IsWord w)
    (h : tokens s = ws.map .word ++ ts) : Gives (ws.forM keyword) s () ts := by
  induction ws generalizing s with
  | nil => exact .pure h
  | cons w ws ih =>
    show Gives (keyword w >>= fun _ => ws.forM keyword) s () ts
    exact (gives_keyword (hws w List.mem_cons_self) h).bind fun r hr =>
      ih (fun v hv => hws v (List.mem_cons_of_mem w hv)) hr

theorem forM_eq_none {ws : List String} (hws : ∀ w ∈ ws, IsWord w)
    (h : ¬ ws.map .word <+: tokens s) : ws.forM keyword s = none := by
  induction ws generalizing s with
  | nil => exact absurd (List.nil_prefix) h
  | cons w ws ih =>
    show (keyword w >>= fun _ => ws.forM keyword) s = none
    rw [bind_apply, keyword_apply (hws w List.mem_cons_self)]
    split
    · next hhead =>
      obtain ⟨us, hus⟩ := List.head?_eq_some_iff.1 hhead
      refine ih (fun v hv => hws v (List.mem_cons_of_mem w hv)) fun hpre => h ?_
      rw [tokens_after, hus] at hpre
      rw [hus]
      exact (List.prefix_cons_inj _).2 hpre
    · rfl

def leadIf (modifier : String) (b : Bool) : List Token := if b then [.word modifier] else []

theorem gives_leadIf {modifier : String} (hm : IsWord modifier) {b : Bool}
    (h : tokens s = leadIf modifier b ++ ts) (hts : b = false → ts.head? ≠ some (.word modifier)) :
    Gives (present (keyword modifier)) s b ts := by
  cases b with
  | true => exact (gives_keyword hm h).present
  | false =>
    have hhead : (tokens s).head? ≠ some (.word modifier) := by rw [h]; exact hts rfl
    exact .of_same (present_of_none (keyword_eq_none hm hhead)) h

section Modified

variable {modifier : String} {size : List String} {b : Bool} (hm : IsWord modifier)
  (hsize : ∀ w ∈ size, IsWord w) (h : tokens s = leadIf modifier b ++ ts)
  (hts : b = false → ts.head? ≠ some (.word modifier))

include hm hsize h hts

theorem gives_modified (hsame : ts = size.map .word ++ us) :
    Gives (modified modifier size) s
      (.named (" ".intercalate (if b then modifier :: size else size))) us :=
  (gives_leadIf hm h hts).bind fun _ hr => (gives_forM hsize (hr.trans hsame)).bind fun _ hr =>
    .pure hr

theorem modified_eq_none (hnot : ¬ size.map .word <+: ts) : modified modifier size s = none := by
  obtain ⟨r, hr, htokens, -⟩ := gives_leadIf hm h hts
  unfold modified
  rw [bind_apply, hr]
  exact bind_eq_none (forM_eq_none hsize (htokens ▸ hnot)) _

end Modified

theorem modified_eq_none_of_head {modifier v : String} {size : List String} (hm : IsWord modifier)
    (hsize : ∀ w ∈ v :: size, IsWord w) (h : tokens s = .word w :: ts) (hw : w ≠ v)
    (hts : ts.head? ≠ some (.word v)) : modified modifier (v :: size) s = none := by
  by_cases hlead : w = modifier
  · refine modified_eq_none (b := true) hm hsize (hlead ▸ h) nofun ?_
    rintro ⟨us, rfl⟩
    exact hts rfl
  · refine modified_eq_none (b := false) hm hsize h (fun _ => by simpa using hlead) ?_
    rintro ⟨us, hus⟩
    exact hw (Token.word.inj (List.cons.inj hus).1).symm

def integerSizes : List (List String) := [["long", "long"], ["long"], ["short"]]

def floatSizes : List (List String) := [["float"], ["double"]]

theorem gives_integerType {size : List String} {b : Bool} (hsize : size ∈ integerSizes)
    (h : tokens s = leadIf "unsigned" b ++ (size.map .word ++ ts))
    (hts : ts.head? ≠ some (.word "long")) :
    Gives integerType s (.named (" ".intercalate (if b then "unsigned" :: size else size))) ts := by
  have hm : IsWord "unsigned" := by decide
  have hlong : ¬ ["long", "long"].map Token.word <+: ["long"].map Token.word ++ ts := by
    rintro ⟨us, hus⟩
    have hrest : Token.word "long" :: us = ts := (List.cons.inj hus).2
    exact hts (hrest ▸ rfl)
  unfold integerType
  simp only [integerSizes, List.mem_cons, List.not_mem_nil, or_false] at hsize
  rcases hsize with rfl | rfl | rfl
  · exact .left (gives_modified hm (by decide) h (fun _ => by simp) rfl)
  · refine .right (modified_eq_none hm (by decide) h (fun _ => by simp) hlong) (.left ?_)
    exact gives_modified hm (by decide) h (fun _ => by simp) rfl
  · refine .right (modified_eq_none hm (by decide) h (fun _ => by simp) (by simp)) ?_
    refine .right (modified_eq_none hm (by decide) h (fun _ => by simp) (by simp)) ?_
    exact gives_modified hm (by decide) h (fun _ => by simp) rfl

theorem gives_floatType {size : List String} {b : Bool} (hsize : size ∈ floatSizes)
    (h : tokens s = leadIf "unrestricted" b ++ (size.map .word ++ ts)) :
    Gives floatType s
      (.named (" ".intercalate (if b then "unrestricted" :: size else size))) ts := by
  have hm : IsWord "unrestricted" := by decide
  unfold floatType
  simp only [floatSizes, List.mem_cons, List.not_mem_nil, or_false] at hsize
  rcases hsize with rfl | rfl
  · exact .left (gives_modified hm (by decide) h (fun _ => by simp) rfl)
  · refine .right (modified_eq_none hm (by decide) h (fun _ => by simp) (by simp)) ?_
    exact gives_modified hm (by decide) h (fun _ => by simp) rfl

theorem integerType_eq_none (h : tokens s = .word w :: ts) (hw : w ∉ ["long", "short"])
    (hts : ∀ v ∈ ["long", "short"], ts.head? ≠ some (.word v)) : integerType s = none := by
  have hnone {v : String} (hv : v ∈ ["long", "short"]) {size : List String}
      (hsize : ∀ w ∈ v :: size, IsWord w) : modified "unsigned" (v :: size) s = none :=
    modified_eq_none_of_head (by decide) hsize h (fun he => hw (he ▸ hv)) (hts v hv)
  exact orElse_eq_none (hnone (by simp) (by decide))
    (orElse_eq_none (hnone (by simp) (by decide)) (hnone (by simp) (by decide)))

theorem floatType_eq_none (h : tokens s = .word w :: ts) (hw : w ∉ ["float", "double"])
    (hts : ∀ v ∈ ["float", "double"], ts.head? ≠ some (.word v)) : floatType s = none := by
  have hnone {v : String} (hv : v ∈ ["float", "double"]) (hword : ∀ w ∈ [v], IsWord w) :
      modified "unrestricted" [v] s = none :=
    modified_eq_none_of_head (by decide) hword h (fun he => hw (he ▸ hv)) (hts v hv)
  exact orElse_eq_none (hnone (by simp) (by decide)) (hnone (by simp) (by decide))

theorem exists_size_of_basicType {n : String} (hn : n ∈ basicTypes) :
    (∃ b, ∃ size ∈ integerSizes, wordsOf n.toList = leadIf "unsigned" b ++ size.map .word ∧
      " ".intercalate (if b then "unsigned" :: size else size) = n) ∨
    ∃ b, ∃ size ∈ floatSizes, wordsOf n.toList = leadIf "unrestricted" b ++ size.map .word ∧
      " ".intercalate (if b then "unrestricted" :: size else size) = n := by
  have hall : ∀ n ∈ basicTypes,
      (∃ b, ∃ size ∈ integerSizes, wordsOf n.toList = leadIf "unsigned" b ++ size.map .word ∧
        " ".intercalate (if b then "unsigned" :: size else size) = n) ∨
      ∃ b, ∃ size ∈ floatSizes, wordsOf n.toList = leadIf "unrestricted" b ++ size.map .word ∧
        " ".intercalate (if b then "unrestricted" :: size else size) = n := by decide +kernel
  exact hall n hn

/-! ## Keywords in a choice -/

section Choice

variable {γ : Type} {f : γ → Parser α} {w : γ} {ws : List γ}

theorem gives_firstOf (hw : w ∈ ws)
    (hf : Gives (f w) s a ts) (hother : ∀ v ∈ ws, v ≠ w → f v s = none) :
    Gives (firstOf (ws.map f)) s a ts := by
  induction ws with
  | nil => exact absurd hw List.not_mem_nil
  | cons v ws ih =>
    show Gives (f v <|> firstOf (ws.map f)) s a ts
    by_cases hv : v = w
    · exact .left (hv ▸ hf)
    · exact .right (hother v List.mem_cons_self hv)
        (ih ((List.mem_cons.1 hw).resolve_left (Ne.symm hv)) fun u hu =>
          hother u (List.mem_cons_of_mem v hu))

theorem firstOf_eq_none_iff :
    firstOf (ws.map f) s = none ↔ ∀ w ∈ ws, f w s = none := by
  induction ws with
  | nil => exact ⟨fun _ _ hw => absurd hw List.not_mem_nil, fun _ => rfl⟩
  | cons w ws ih =>
    show (f w <|> firstOf (ws.map f)) s = none ↔ _
    rw [orElse_apply, Option.or_eq_none_iff, ih, List.forall_mem_cons]

end Choice

theorem gives_keywordType {b : Bool} (hw : IsWord w) (hs : Stops ts)
    (h : tokens s = .word w :: (markIf b ++ ts)) : Gives (keywordType w) s (.named w) ts :=
  (gives_keyword hw h).bind fun _ hr => (gives_nullableMark hs hr).bind fun _ hr => .pure hr

theorem keywordType_eq_none (hw : IsWord w) (h : (tokens s).head? ≠ some (.word w)) :
    keywordType w s = none :=
  bind_eq_none (keyword_eq_none hw h) _

theorem firstOf_keywordType_eq_none {ws : List String} (hws : ∀ w ∈ ws, IsWord w)
    (h : ∀ w ∈ ws, (tokens s).head? ≠ some (.word w)) :
    firstOf (ws.map keywordType) s = none :=
  firstOf_eq_none_iff.2 fun w hw => keywordType_eq_none (hws w hw) (h w hw)

/-! ## Angle brackets -/

theorem gives_bracketed (hw : IsWord w) (h : tokens s = .word w :: .mark '<' :: us)
    (hp : ∀ r, tokens r = us → Gives p r a (.mark '>' :: ts)) :
    Gives (bracketed w p) s a ts :=
  (gives_keyword hw h).bind fun _ hr =>
    (gives_mark (m := "<") rfl (by decide) hr).bind fun r hr => (hp r hr).bind fun _ hr =>
      (gives_mark (m := ">") rfl (by decide) hr).bind fun _ hr => .pure hr

theorem bracketed_eq_none (hw : IsWord w)
    (h : ¬ [.word w, .mark '<'] <+: tokens s) : bracketed w p s = none := by
  unfold bracketed
  rw [bind_apply, keyword_apply hw]
  split
  · next hhead =>
    obtain ⟨us, hus⟩ := List.head?_eq_some_iff.1 hhead
    refine bind_eq_none (mark_eq_none (m := "<") (c := '<') rfl (by decide) fun hmark => h ?_) _
    rw [tokens_after, hus] at hmark
    obtain ⟨vs, hvs⟩ := List.head?_eq_some_iff.1 hmark
    rw [hus, show us = _ from hvs]
    exact List.prefix_append [.word w, .mark '<'] vs
  · rfl

section Generic

variable {kind : GenericKind} {arg : Parser TypeExpr} {t : TypeExpr}

theorem gives_genericType (hw : IsWord kind.tag)
    (h : tokens s = .word kind.tag :: .mark '<' :: us)
    (harg : ∀ r, tokens r = us → Gives arg r t (.mark '>' :: ts)) :
    Gives (genericType kind arg) s (.generic kind [t]) ts :=
  (gives_bracketed hw h harg).bind fun _ hr => .pure hr

theorem genericType_eq_none (hw : IsWord kind.tag)
    (h : ¬ [.word kind.tag, .mark '<'] <+: tokens s) : genericType kind arg s = none :=
  bind_eq_none (bracketed_eq_none hw h) _

end Generic

theorem gives_recordType {inner : Level} {k v : TypeExpr} {vs : List Token}
    (h : tokens s = .word (GenericKind.tag .record) :: .mark '<' :: us)
    (hkey : ∀ r, tokens r = us → Gives (keyType inner) r k (.mark ',' :: vs))
    (hvalue : ∀ r, tokens r = vs → Gives (typeExpr inner) r v (.mark '>' :: ts)) :
    Gives (recordType inner) s (.generic .record [k, v]) ts :=
  gives_bracketed (by decide) h fun r hr => (hkey r hr).bind fun _ hr =>
    (gives_mark (m := ",") rfl (by decide) hr).bind fun r hr => (hvalue r hr).bind fun _ hr =>
      .pure hr

/-! ## Any type but `any` and a union -/

theorem not_prefix_of_ne {v : String} {t : Token} (h : tokens s = .word w :: us) (hne : w ≠ v) :
    ¬ [.word v, t] <+: tokens s := by
  rw [h]
  rintro ⟨vs, hvs⟩
  exact hne (Token.word.inj (List.cons.inj hvs).1).symm

theorem not_prefix_of_head {u : Token} (h : tokens s = t :: us) (hne : us.head? ≠ some u)
    (v : Token) : ¬ [v, u] <+: tokens s := by
  rw [h]
  rintro ⟨vs, hvs⟩
  have hus : u :: vs = us := (List.cons.inj hvs).2
  exact hne (hus ▸ rfl)

/-- The numbers are refused where no size stands in front, with a modifier or without. -/
theorem numbers_eq_none (h : tokens s = .word w :: us) (hw : w ∉ sizeWords)
    (hus : ∀ v ∈ sizeWords, us.head? ≠ some (.word v)) :
    markable integerType s = none ∧ markable floatType s = none := by
  simp only [sizeWords, List.mem_cons, List.not_mem_nil, or_false, not_or] at hw
  simp only [sizeWords, List.forall_mem_cons] at hus
  exact ⟨markable_eq_none (integerType_eq_none h (by simp [hw]) (by simp [hus])),
    markable_eq_none (floatType_eq_none h (by simp [hw]) (by simp [hus]))⟩

theorem head?_markIf_append_ne_size (hs : Stops ts) (b : Bool) :
    ∀ v ∈ sizeWords, (markIf b ++ ts).head? ≠ some (.word v) := by
  intro v hv
  refine head?_markIf_append hs b ?_ nofun
  have hall : ∀ v ∈ sizeWords, (Token.word v).stops = false := by decide
  exact hall v hv

def leadWords : List String := "unsigned" :: "unrestricted" :: sizeWords

theorem exists_leadWord {n : String} (hn : n ∈ basicTypes) :
    ∃ w ∈ leadWords, ∃ us, wordsOf n.toList = .word w :: us := by
  have hall : ∀ n ∈ basicTypes, ∃ w ∈ leadWords, (wordsOf n.toList).head? = some (.word w) := by
    decide +kernel
  obtain ⟨w, hw, hhead⟩ := hall n hn
  exact ⟨w, hw, List.head?_eq_some_iff.1 hhead⟩

section NonAny

variable {inner : Level} {n : String}

theorem gives_basicType (hn : n ∈ basicTypes) {b : Bool} (hs : Stops ts)
    (h : tokens s = wordsOf n.toList ++ (markIf b ++ ts)) :
    Gives (nonAnyType inner) s ((TypeExpr.named n).withMark b) ts := by
  obtain ⟨w, hw, us, hus⟩ := exists_leadWord hn
  have hne : w ≠ GenericKind.tag .promise := by
    rintro rfl
    exact absurd hw (by decide)
  have hfirst : tokens s = .word w :: (us ++ (markIf b ++ ts)) := by
    rw [h, hus]
    rfl
  refine .right (genericType_eq_none (by decide) (not_prefix_of_ne hfirst hne)) ?_
  have hstop := head?_markIf_append_ne_size hs b
  rcases exists_size_of_basicType hn with
    ⟨lead, size, hsize, hwords, hname⟩ | ⟨lead, size, hsize, hwords, hname⟩
  · rw [hwords, List.append_assoc] at h
    refine .left (hname ▸ gives_markable hs (gives_integerType hsize h ?_))
    exact hstop "long" (by decide)
  · rw [hwords, List.append_assoc] at h
    refine .right (markable_eq_none ?_)
      (.left (hname ▸ gives_markable hs (gives_floatType hsize h)))
    have hrest : ∀ v ∈ ["long", "short"], (markIf b ++ ts).head? ≠ some (.word v) :=
      List.forall_mem_cons.2 ⟨hstop "long" (by decide), List.forall_mem_singleton.2
        (hstop "short" (by decide))⟩
    simp only [floatSizes, List.mem_cons, List.not_mem_nil, or_false] at hsize
    rcases hsize with rfl | rfl <;> cases lead
    · exact integerType_eq_none h (by decide) hrest
    · exact integerType_eq_none h (by decide) (by simp)
    · exact integerType_eq_none h (by decide) hrest
    · exact integerType_eq_none h (by decide) (by simp)

/-- What is refused in front of the keyword types and the generic types. -/
theorem gives_nonAnyType {t : TypeExpr} (h : tokens s = .word w :: us) (hw : w ∉ sizeWords)
    (hus : ∀ v ∈ sizeWords, us.head? ≠ some (.word v))
    (hpromise : ¬ [.word (GenericKind.tag .promise), .mark '<'] <+: tokens s)
    (hrest : Gives (firstOf (keywordsBefore.map keywordType) <|>
      markable (genericType .sequence (typeExpr inner)) <|>
      firstOf (keywordsAfter.map keywordType) <|>
      markable (genericType .frozenArray (typeExpr inner)) <|>
      markable (recordType inner) <|> markable namedType) s t ts) :
    Gives (nonAnyType inner) s t ts :=
  have hnumbers := numbers_eq_none h hw hus
  .right (genericType_eq_none (by decide) hpromise) (.right hnumbers.1 (.right hnumbers.2 hrest))

theorem keywordTypes_eq_none {ws : List String} (hws : ws ⊆ keywordTypes)
    (h : tokens s = .word w :: us) (hw : w ∉ ws) : firstOf (ws.map keywordType) s = none := by
  refine firstOf_keywordType_eq_none (fun v hv => (isSpelled_of_keyword (hws hv)).2.2) ?_
  intro v hv hhead
  rw [h] at hhead
  exact hw (Token.word.inj (Option.some.inj hhead) ▸ hv)

theorem keywordsBefore_subset : keywordsBefore ⊆ keywordTypes := List.subset_append_left _ _

theorem keywordsAfter_subset : keywordsAfter ⊆ keywordTypes := List.subset_append_right _ _

theorem gives_keywordName (hn : n ∈ keywordTypes) {b : Bool} (hs : Stops ts)
    (h : tokens s = .word n :: (markIf b ++ ts)) : Gives (nonAnyType inner) s (.named n) ts := by
  have hnot : n ∉ sizeWords ∧ n ≠ GenericKind.tag .promise ∧ n ≠ GenericKind.tag .sequence := by
    have hall : ∀ n ∈ keywordTypes, n ∉ sizeWords ∧ n ≠ GenericKind.tag .promise ∧
        n ≠ GenericKind.tag .sequence := by decide
    exact hall n hn
  have hread := gives_keywordType (isSpelled_of_keyword hn).2.2 hs h
  have hother {ws : List String} (hws : ws ⊆ keywordTypes) :
      ∀ v ∈ ws, v ≠ n → keywordType v s = none := by
    intro v hv hne
    refine keywordType_eq_none (isSpelled_of_keyword (hws hv)).2.2 fun hhead => hne ?_
    rw [h] at hhead
    exact (Token.word.inj (Option.some.inj hhead)).symm
  refine gives_nonAnyType h hnot.1 (head?_markIf_append_ne_size hs b)
    (not_prefix_of_ne h hnot.2.1) ?_
  by_cases hbefore : n ∈ keywordsBefore
  · exact .left (gives_firstOf hbefore hread (hother keywordsBefore_subset))
  · have hafter := (List.mem_append.1 hn).resolve_left hbefore
    refine .right (keywordTypes_eq_none keywordsBefore_subset h hbefore) ?_
    refine .right (markable_eq_none (genericType_eq_none (by decide)
      (not_prefix_of_ne h hnot.2.2))) ?_
    exact .left (gives_firstOf hafter hread (hother keywordsAfter_subset))

/-- A name is read where nothing else is: no bracket follows it, and it is no keyword. -/
theorem gives_identifierName {m : String} (hname : nameOf? n = some m) (hn : n ∉ keywordTypes)
    (hsize : n ∉ sizeWords) {b : Bool} (hs : Stops ts)
    (h : tokens s = .word n :: (markIf b ++ ts)) :
    Gives (nonAnyType inner) s ((TypeExpr.named m).withMark b) ts := by
  have hbracket (w : Token) : ¬ [w, .mark '<'] <+: tokens s :=
    not_prefix_of_head h (head?_markIf_append (t := .mark '<') hs b rfl (by decide)) w
  refine gives_nonAnyType h hsize (head?_markIf_append_ne_size hs b) (hbracket _) ?_
  refine .right (keywordTypes_eq_none keywordsBefore_subset h fun hmem =>
    hn (keywordsBefore_subset hmem)) ?_
  refine .right (markable_eq_none (genericType_eq_none (by decide) (hbracket _))) ?_
  refine .right (keywordTypes_eq_none keywordsAfter_subset h fun hmem =>
    hn (keywordsAfter_subset hmem)) ?_
  refine .right (markable_eq_none (genericType_eq_none (by decide) (hbracket _))) ?_
  refine .right (markable_eq_none (bracketed_eq_none (by decide) (hbracket _))) ?_
  exact gives_markable hs (gives_identifier h hname).map

theorem gives_promise {t : TypeExpr}
    (h : tokens s = .word (GenericKind.tag .promise) :: .mark '<' :: us)
    (harg : ∀ r, tokens r = us → Gives (returnType inner) r t (.mark '>' :: ts)) :
    Gives (nonAnyType inner) s (.generic .promise [t]) ts :=
  .left (gives_genericType (by decide) h harg)

theorem gives_list {kind : GenericKind} (hk : kind = .sequence ∨ kind = .frozenArray)
    {t : TypeExpr} {b : Bool} (hs : Stops ts)
    (h : tokens s = .word kind.tag :: .mark '<' :: us)
    (harg : ∀ r, tokens r = us → Gives (typeExpr inner) r t (.mark '>' :: (markIf b ++ ts))) :
    Gives (nonAnyType inner) s ((TypeExpr.generic kind [t]).withMark b) ts := by
  have hlist (hw : IsWord kind.tag) :
      Gives (markable (genericType kind (typeExpr inner))) s
        ((TypeExpr.generic kind [t]).withMark b) ts :=
    gives_markable hs (gives_genericType hw h harg)
  rcases hk with rfl | rfl
  · refine gives_nonAnyType h (by decide) (by simp) (not_prefix_of_ne h (by decide)) ?_
    refine .right (keywordTypes_eq_none keywordsBefore_subset h (by decide)) ?_
    exact .left (hlist (by decide))
  · refine gives_nonAnyType h (by decide) (by simp) (not_prefix_of_ne h (by decide)) ?_
    refine .right (keywordTypes_eq_none keywordsBefore_subset h (by decide)) ?_
    refine .right (markable_eq_none (genericType_eq_none (by decide)
      (not_prefix_of_ne h (by decide)))) ?_
    refine .right (keywordTypes_eq_none keywordsAfter_subset h (by decide)) ?_
    exact .left (hlist (by decide))

theorem gives_record {k v : TypeExpr} {b : Bool} (vs : List Token) (hs : Stops ts)
    (h : tokens s = .word (GenericKind.tag .record) :: .mark '<' :: us)
    (hkey : ∀ r, tokens r = us → Gives (keyType inner) r k (.mark ',' :: vs))
    (hvalue : ∀ r, tokens r = vs →
      Gives (typeExpr inner) r v (.mark '>' :: (markIf b ++ ts))) :
    Gives (nonAnyType inner) s ((TypeExpr.generic .record [k, v]).withMark b) ts := by
  refine gives_nonAnyType h (by decide) (by simp) (not_prefix_of_ne h (by decide)) ?_
  refine .right (keywordTypes_eq_none keywordsBefore_subset h (by decide)) ?_
  refine .right (markable_eq_none (genericType_eq_none (by decide)
    (not_prefix_of_ne h (by decide)))) ?_
  refine .right (keywordTypes_eq_none keywordsAfter_subset h (by decide)) ?_
  refine .right (markable_eq_none (genericType_eq_none (by decide)
    (not_prefix_of_ne h (by decide)))) ?_
  exact .left (gives_markable hs (gives_recordType h hkey hvalue))

def nonAnyWords : List String :=
  leadWords ++ keywordTypes ++
    [GenericKind.promise.tag, GenericKind.sequence.tag, GenericKind.frozenArray.tag,
      GenericKind.record.tag]

/-- A type that starts with none of these words is an identifier. -/
theorem nonAnyType_of_head (h : ∀ w ∈ nonAnyWords, (tokens s).head? ≠ some (.word w)) :
    nonAnyType inner s = markable namedType s := by
  have hstart {w : String} (hw : w ∈ nonAnyWords) (ts : List Token) :
      ¬ .word w :: ts <+: tokens s := by
    rintro ⟨us, hus⟩
    exact h w hw (hus ▸ rfl)
  have hmodified {modifier v : String} {size : List String} (hm : IsWord modifier)
      (hwords : ∀ w ∈ v :: size, IsWord w) (hmem : modifier ∈ nonAnyWords ∧ v ∈ nonAnyWords) :
      modified modifier (v :: size) s = none :=
    modified_eq_none (b := false) hm hwords rfl (fun _ => h modifier hmem.1) (hstart hmem.2 _)
  have hgeneric {kind : GenericKind} {arg : Parser TypeExpr}
      (hw : IsWord kind.tag ∧ kind.tag ∈ nonAnyWords) : genericType kind arg s = none :=
    genericType_eq_none hw.1 (hstart hw.2 _)
  have hkeyword {ws : List String} (hws : ws ⊆ keywordTypes) :
      firstOf (ws.map keywordType) s = none := by
    refine firstOf_keywordType_eq_none (fun v hv => (isSpelled_of_keyword (hws hv)).2.2) ?_
    exact fun v hv => h v (by simp [nonAnyWords, hws hv])
  refine orElse_of_none (hgeneric (by decide)) ?_
  refine orElse_of_none (markable_eq_none ?_) (orElse_of_none (markable_eq_none ?_) ?_)
  · exact orElse_eq_none (hmodified (by decide) (by decide) (by decide))
      (orElse_eq_none (hmodified (by decide) (by decide) (by decide))
        (hmodified (by decide) (by decide) (by decide)))
  · exact orElse_eq_none (hmodified (by decide) (by decide) (by decide))
      (hmodified (by decide) (by decide) (by decide))
  refine orElse_of_none (hkeyword keywordsBefore_subset) ?_
  refine orElse_of_none (markable_eq_none (hgeneric (by decide))) ?_
  refine orElse_of_none (hkeyword keywordsAfter_subset) ?_
  refine orElse_of_none (markable_eq_none (hgeneric (by decide))) ?_
  exact orElse_of_none (markable_eq_none (bracketed_eq_none (by decide) (hstart (by decide) _))) rfl

theorem nonAnyType_eq_none (h : (tokens s).head? = some (.mark c)) :
    nonAnyType inner s = none := by
  have hname : namedType s = none := by
    unfold namedType
    rw [map_apply, identifier_eq_none h]
    rfl
  rw [nonAnyType_of_head (by rw [h]; exact nofun)]
  exact markable_eq_none hname

end NonAny

end IdlDocs.Idl
