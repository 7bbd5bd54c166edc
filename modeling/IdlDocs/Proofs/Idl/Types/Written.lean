import IdlDocs.Proofs.Idl.Types.Tokens

/-!
# Written types

A type as it is **written** may differ from the type that is read: a word may have a low line in
front of it, and a keyword type a nullable mark, and both are dropped.

* `TypeExpr.tokens`: the tokens of a type, `spaced`: a row of tokens with canonical spaces.
* `Place`, `Fits`: **the types that may be written at a place** of the grammar.
* `TypeExpr.spaced_tokens`: **the tokens of a type with canonical spaces are its written form.**
* `tokens_spaced_append`, `spaced_inj`: a row of tokens with canonical spaces has these tokens.
* `Fits.isProper`: types are written with words that are names, and six marks.
-/

namespace IdlDocs.Idl

open Text Text.Parser

/-! ## Tokens of types -/

def markIf (b : Bool) : List Token := if b then [.mark '?'] else []

def wordsOf (s : List Char) : List Token := (parts ' ' s).map fun w => .word (String.ofList w)

namespace TypeExpr

mutual

def tokens : TypeExpr → List Token
  | named name => wordsOf name.toList
  | union ts => .mark '(' :: ([.word "or"].intercalate (tokensOf ts) ++ [.mark ')'])
  | generic kind ts =>
    .word kind.tag :: .mark '<' :: ([.mark ','].intercalate (tokensOf ts) ++ [.mark '>'])
  | nullable t => t.tokens ++ [.mark '?']

def tokensOf : List TypeExpr → List (List Token)
  | [] => []
  | t :: ts => t.tokens :: tokensOf ts

end

end TypeExpr

/-! ## Types at a place -/

def basicTypes : List String :=
  ["long long", "unsigned long long", "long", "unsigned long", "short", "unsigned short",
    "float", "unrestricted float", "double", "unrestricted double"]

/-- The types that are named by a keyword, of which a nullable mark is dropped. -/
def keywordTypes : List String := keywordsBefore ++ keywordsAfter

/-- What a name of a type is written as: the words of a basic type, or a word that is a name. -/
def IsSpelled (n : String) : Prop := n ∈ basicTypes ∨ IsWord n ∧ (nameOf? n).isSome = true

instance (n : String) : Decidable (IsSpelled n) := inferInstanceAs (Decidable (_ ∨ _ ∧ _))

/-- The places of the grammar where a type stands. -/
inductive Place
  /-- Any type but a union. -/
  | plain
  /-- A member of a union. -/
  | member
  /-- Any type. -/
  | type
  /-- A return type. -/
  | result
  /-- The keys of a record. -/
  | key
deriving DecidableEq

namespace Place

/-- The words that take no nullable mark at a place. -/
def bare : Place → List String
  | type => ["any"]
  | result => ["undefined", "any"]
  | key => ["ByteString", "DOMString", "USVString"]
  | plain | member => []

def takesUnion : Place → Bool
  | type | result | member => true
  | plain | key => false

def parser : Place → Level → Parser TypeExpr
  | plain => Level.nonAny
  | member => unionMember
  | type => typeExpr
  | result => returnType
  | key => keyType

end Place

/-- The types that may be written at a place. -/
inductive Fits : Place → TypeExpr → Prop
  | name {p n} (hn : IsSpelled n) (b : Bool) (hb : b = true → n ∉ p.bare) :
      Fits p ((TypeExpr.named n).withMark b)
  | promise {p t} (h : Fits .result t) : Fits p (.generic .promise [t])
  | list {p k t} (hk : k = .sequence ∨ k = .frozenArray) (h : Fits .type t) (b : Bool) :
      Fits p ((TypeExpr.generic k [t]).withMark b)
  | record {p k v} (hk : Fits .key k) (hv : Fits .type v) (b : Bool) :
      Fits p ((TypeExpr.generic .record [k, v]).withMark b)
  | union {p ts} (hp : p.takesUnion = true) (h : ∀ t ∈ ts, Fits .member t) (b : Bool) :
      Fits p ((TypeExpr.union ts).withMark b)

def writtenKinds : List GenericKind := [.promise, .sequence, .frozenArray, .record]

/-! ## Canonical spaces -/

def Token.chars : Token → List Char
  | .word w => w.toList
  | .mark c => [c]

/-- Tells whether a space stands between two tokens: between words, after a comma, and between a
word and the type in front of it or the parenthesis behind it. -/
def spaceBetween : Token → Token → Bool
  | .word _, .word _ => true
  | .word _, .mark c => c == '('
  | .mark c, .word _ => [',', ')', '>', '?'].contains c
  | .mark c, .mark _ => c == ','

def gap (t u : Token) : List Char := if spaceBetween t u then [' '] else []

/-- A row of tokens with canonical spaces between them. -/
def spaced : List Token → List Char
  | [] => []
  | [t] => t.chars
  | t :: u :: ts => t.chars ++ (gap t u ++ spaced (u :: ts))

theorem spaced_append (xs : List Token) (t u : Token) (ys : List Token) :
    spaced (xs ++ t :: u :: ys) = spaced (xs ++ [t]) ++ (gap t u ++ spaced (u :: ys)) := by
  induction xs with
  | nil => rfl
  | cons x xs ih =>
    cases xs with
    | nil => simp [spaced]
    | cons y xs =>
      rw [List.cons_append, List.cons_append, List.cons_append, List.cons_append, spaced, spaced,
        ← List.cons_append, ih]
      simp

namespace TypeExpr

@[elab_as_elim]
theorem inside {P : TypeExpr → Prop} (named : ∀ n, P (named n))
    (union : ∀ ts, (∀ t ∈ ts, P t) → P (union ts))
    (generic : ∀ k ts, (∀ t ∈ ts, P t) → P (generic k ts))
    (nullable : ∀ t, P t → P (nullable t)) (t : TypeExpr) : P t :=
  TypeExpr.rec named union generic nullable (fun _ h => absurd h List.not_mem_nil)
    (fun t ts ht hts u hu => by
      rcases List.mem_cons.1 hu with rfl | hu
      · exact ht
      · exact hts u hu) t

end TypeExpr

def Token.opens : Token → Bool
  | .word _ => true
  | .mark c => c == '('

def Token.closes : Token → Bool
  | .word _ => true
  | .mark c => [')', '>', '?'].contains c

theorem exists_wordsOf_eq_cons (s : List Char) : ∃ w ts, wordsOf s = .word w :: ts := by
  obtain ⟨p, ps, hp⟩ := List.exists_cons_of_ne_nil (parts_ne_nil ' ' s)
  unfold wordsOf
  rw [hp]
  exact ⟨_, _, rfl⟩

theorem exists_wordsOf_eq_append (s : List Char) : ∃ ts w, wordsOf s = ts ++ [Token.word w] := by
  obtain ⟨ps, p, hp⟩ := (List.eq_nil_or_concat (parts ' ' s)).resolve_left (parts_ne_nil ' ' s)
  unfold wordsOf
  rw [hp, List.concat_eq_append, List.map_append]
  exact ⟨_, _, rfl⟩

theorem TypeExpr.exists_opens (t : TypeExpr) : ∃ a ts, t.tokens = a :: ts ∧ a.opens = true := by
  induction t using TypeExpr.inside with
  | named n =>
    obtain ⟨w, ts, hw⟩ := exists_wordsOf_eq_cons n.toList
    exact ⟨.word w, ts, hw, rfl⟩
  | union ts => exact ⟨_, _, rfl, rfl⟩
  | generic k ts => exact ⟨_, _, rfl, rfl⟩
  | nullable t ih =>
    obtain ⟨a, ts, ht, ha⟩ := ih
    exact ⟨a, ts ++ [Token.mark '?'], by rw [TypeExpr.tokens, ht]; rfl, ha⟩

theorem TypeExpr.exists_closes (t : TypeExpr) :
    ∃ ts b, t.tokens = ts ++ [b] ∧ b.closes = true := by
  cases t with
  | named n =>
    obtain ⟨ts, w, hw⟩ := exists_wordsOf_eq_append n.toList
    exact ⟨ts, .word w, hw, rfl⟩
  | union ts => exact ⟨_ :: _, _, rfl, rfl⟩
  | generic k ts => exact ⟨_ :: _ :: _, _, rfl, rfl⟩
  | nullable t => exact ⟨_, _, rfl, rfl⟩

/-! ## The written form of a type -/

/-- Nothing stands between a type and a mark but a parenthesis. -/
theorem gap_closes {t : Token} (ht : t.closes = true) {c : Char} (hc : c ≠ '(') :
    gap t (.mark c) = [] := by
  unfold gap
  cases t with
  | word w => simp [spaceBetween, hc]
  | mark d =>
    have hd : d ≠ ',' := by
      rintro rfl
      exact absurd ht (by decide)
    simp [spaceBetween, hd]

theorem gap_closes_word {t : Token} (ht : t.closes = true) (w : String) :
    gap t (.word w) = [' '] := by
  unfold gap
  cases t with
  | word _ => rfl
  | mark d =>
    have hd : [',', ')', '>', '?'].contains d = true := by
      simp only [Token.closes, List.contains_iff_mem] at ht ⊢
      exact List.mem_cons_of_mem ',' ht
    simp only [spaceBetween, hd, if_true]

theorem gap_word_opens (w : String) {t : Token} (ht : t.opens = true) :
    gap (.word w) t = [' '] := by
  unfold gap
  cases t with
  | word _ => rfl
  | mark c => exact if_pos ht

theorem gap_bracket {c : Char} (hc : c = '(' ∨ c = '<') (t : Token) : gap (.mark c) t = [] := by
  rcases hc with rfl | rfl <;> cases t <;> rfl

theorem spaced_wordsOf (s : List Char) : spaced (wordsOf s) = s := by
  have hwords (ps : List (List Char)) :
      spaced (ps.map fun w => .word (String.ofList w)) = [' '].intercalate ps := by
    induction ps with
    | nil => rfl
    | cons p ps ih =>
      cases ps with
      | nil => simp [spaced, Token.chars]
      | cons q ps =>
        rw [List.intercalate_cons_cons, ← ih]
        simp [spaced, Token.chars, gap, spaceBetween]
  unfold wordsOf
  rw [hwords, intercalate_parts]

theorem TypeExpr.intercalate_cons_cons (sep : Token) (t u : TypeExpr) (ts : List TypeExpr) :
    [sep].intercalate (tokensOf (t :: u :: ts)) =
      t.tokens ++ sep :: [sep].intercalate (tokensOf (u :: ts)) := by
  simp [tokensOf, List.intercalate_cons_cons]

/-- How a list of types starts. -/
theorem TypeExpr.exists_intercalate_opens (sep : Token) (t : TypeExpr) (ts : List TypeExpr) :
    ∃ a xs, [sep].intercalate (tokensOf (t :: ts)) = a :: xs ∧ a.opens = true := by
  obtain ⟨a, xs, ha, hopens⟩ := t.exists_opens
  cases ts with
  | nil => exact ⟨a, xs, by simpa [tokensOf] using ha, hopens⟩
  | cons u ts =>
    refine ⟨a, xs ++ sep :: [sep].intercalate (tokensOf (u :: ts)), ?_, hopens⟩
    rw [intercalate_cons_cons, ha]
    rfl

/-- How a list of types ends. -/
theorem TypeExpr.exists_intercalate_closes (sep : Token) (ts : List TypeExpr) :
    [sep].intercalate (tokensOf ts) = [] ∨
      ∃ xs b, [sep].intercalate (tokensOf ts) = xs ++ [b] ∧ b.closes = true := by
  induction ts with
  | nil => exact .inl rfl
  | cons t ts ih =>
    right
    obtain ⟨xs, b, hb, hcloses⟩ := t.exists_closes
    cases ts with
    | nil => exact ⟨xs, b, by simpa [tokensOf] using hb, hcloses⟩
    | cons u ts =>
      have hne : [sep].intercalate (tokensOf (u :: ts)) ≠ [] := by
        obtain ⟨a, ys, ha, -⟩ := exists_intercalate_opens sep u ts
        rw [ha]
        exact List.cons_ne_nil a ys
      obtain ⟨ys, c, hc, hcloses'⟩ := ih.resolve_left hne
      refine ⟨t.tokens ++ sep :: ys, c, ?_, hcloses'⟩
      rw [intercalate_cons_cons, hc]
      simp

theorem spaced_intercalate {sep : Token} {text : List Char}
    (hsep : ∀ t u : Token, t.closes = true → u.opens = true →
      gap t sep ++ (sep.chars ++ gap sep u) = text)
    {ts : List TypeExpr} (h : ∀ t ∈ ts, spaced t.tokens = t.chars) :
    spaced ([sep].intercalate (TypeExpr.tokensOf ts)) =
      text.intercalate (TypeExpr.charsOf ts) := by
  induction ts with
  | nil => rfl
  | cons t ts ih =>
    have ht := h t List.mem_cons_self
    have hts := ih fun u hu => h u (List.mem_cons_of_mem t hu)
    cases ts with
    | nil => simpa [TypeExpr.tokensOf, TypeExpr.charsOf] using ht
    | cons u ts =>
      obtain ⟨xs, b, hb, hcloses⟩ := t.exists_closes
      obtain ⟨a, ys, ha, hopens⟩ := TypeExpr.exists_intercalate_opens sep u ts
      have htokens : [sep].intercalate (TypeExpr.tokensOf (t :: u :: ts)) =
          xs ++ b :: sep :: a :: ys := by
        rw [TypeExpr.intercalate_cons_cons, ha, hb]
        simp
      rw [TypeExpr.charsOf, TypeExpr.charsOf, List.intercalate_cons_cons, ← TypeExpr.charsOf, ← hts,
        htokens, spaced_append, ← hb, ht, spaced, ← hsep b a hcloses hopens, ha]
      simp

theorem gap_or {t u : Token} (ht : t.closes = true) (hu : u.opens = true) :
    gap t (.word "or") ++ ((Token.word "or").chars ++ gap (.word "or") u) = " or ".toList := by
  rw [gap_closes_word ht, gap_word_opens _ hu]
  rfl

theorem gap_comma {t u : Token} (ht : t.closes = true) (hu : u.opens = true) :
    gap t (.mark ',') ++ ((Token.mark ',').chars ++ gap (.mark ',') u) = ", ".toList := by
  have hspace : gap (.mark ',') u = [' '] := by cases u <;> rfl
  rw [gap_closes ht (by decide), hspace]
  rfl

theorem spaced_closes_mark {xs : List Token} {b : Token} (hb : b.closes = true) {c : Char}
    (hc : c ≠ '(') : spaced (xs ++ [b] ++ [Token.mark c]) = spaced (xs ++ [b]) ++ [c] := by
  rw [List.append_assoc, List.singleton_append, spaced_append, gap_closes hb hc]
  rfl

theorem spaced_bracket_cons {c : Char} (hc : c = '(' ∨ c = '<') (ts : List Token) :
    spaced (.mark c :: ts) = c :: spaced ts := by
  cases ts with
  | nil => rfl
  | cons t ts =>
    rw [spaced, gap_bracket hc]
    rfl

theorem spaced_bracketed {c d : Char} (hc : c = '(' ∨ c = '<') (hd : d ≠ '(') (sep : Token)
    (ts : List TypeExpr) :
    spaced (.mark c :: ([sep].intercalate (TypeExpr.tokensOf ts) ++ [Token.mark d])) =
      c :: (spaced ([sep].intercalate (TypeExpr.tokensOf ts)) ++ [d]) := by
  rw [spaced_bracket_cons hc]
  rcases TypeExpr.exists_intercalate_closes sep ts with hnil | ⟨xs, b, hb, hcloses⟩
  · rw [hnil]
    rfl
  · rw [hb, spaced_closes_mark hcloses hd]

/-- **The tokens of a type with canonical spaces are its written form.** -/
theorem TypeExpr.spaced_tokens (t : TypeExpr) : spaced t.tokens = t.chars := by
  induction t using TypeExpr.inside with
  | named n => exact spaced_wordsOf n.toList
  | union ts ih =>
    rw [TypeExpr.tokens, TypeExpr.chars, spaced_bracketed (.inl rfl) (by decide),
      spaced_intercalate (fun _ _ => gap_or) ih]
    rfl
  | generic k ts ih =>
    have hgap : gap (.word k.tag) (.mark '<') = [] := rfl
    rw [TypeExpr.tokens, TypeExpr.chars, ← spaced_intercalate (fun _ _ => gap_comma) ih, spaced,
      spaced_bracketed (.inr rfl) (by decide), hgap]
    simp [Token.chars]
  | nullable t ih =>
    obtain ⟨xs, b, hb, hcloses⟩ := t.exists_closes
    rw [TypeExpr.tokens, TypeExpr.chars, ← ih, hb, spaced_closes_mark hcloses (by decide)]

/-! ## The tokens of a written form -/

/-- A token that types are written with: a word that is a name, or one of six marks. -/
def Token.IsProper : Token → Prop
  | .word w => IsWord w ∧ (nameOf? w).isSome = true
  | .mark c => c ∈ ['(', ')', '<', '>', ',', '?']

instance (t : Token) : Decidable t.IsProper :=
  match t with
  | .word w => inferInstanceAs (Decidable (IsWord w ∧ _))
  | .mark _ => inferInstanceAs (Decidable (_ ∈ _))

theorem isMark_of_isProper {c : Char} (h : (Token.mark c).IsProper) : IsMark c := by
  have hall : ['(', ')', '<', '>', ',', '?'].all (decide <| IsMark ·) = true := by decide
  exact of_decide_eq_true (List.all_eq_true.1 hall c h)

theorem tokens_gap_append (t u : Token) (s : List Char) : tokens (gap t u ++ s) = tokens s := by
  unfold gap
  split
  · exact tokens_space_cons (by decide) s
  · rfl

theorem head?_gap_append (w : String) {u : Token} (hu : u.IsProper) (s : List Char) :
    (gap (.word w) u ++ (u.chars ++ s)).head?.all (!isWordChar ·) = true := by
  unfold gap
  split
  · show (!isWordChar ' ') = true
    decide
  · next h =>
    cases u with
    | word v => exact absurd rfl h
    | mark c =>
      show (!isWordChar c) = true
      rw [(isMark_of_isProper hu).1]
      rfl

/-- **A row of tokens with canonical spaces has these tokens.** -/
theorem tokens_spaced_append {ts : List Token} (h : ∀ t ∈ ts, t.IsProper) {z : List Char}
    (hz : z.head?.all (!isWordChar ·) = true) : tokens (spaced ts ++ z) = ts ++ tokens z := by
  induction ts with
  | nil => rfl
  | cons t ts ih =>
    have hrest := ih fun u hu => h u (List.mem_cons_of_mem t hu)
    -- What follows the token is the end, a space, or a mark.
    obtain ⟨y, hy, htokens, hhead⟩ : ∃ y, spaced (t :: ts) ++ z = t.chars ++ y ∧
        tokens y = ts ++ tokens z ∧ (∀ w, t = .word w → y.head?.all (!isWordChar ·) = true) := by
      cases ts with
      | nil => exact ⟨z, rfl, rfl, fun _ _ => hz⟩
      | cons u ts =>
        refine ⟨gap t u ++ (spaced (u :: ts) ++ z), by simp [spaced], ?_, fun w hw => ?_⟩
        · rw [tokens_gap_append, hrest]
        · obtain ⟨y, hy⟩ : ∃ y, spaced (u :: ts) ++ z = u.chars ++ y := by
            cases ts with
            | nil => exact ⟨z, rfl⟩
            | cons v ts => exact ⟨gap u v ++ spaced (v :: ts) ++ z, by simp [spaced]⟩
          rw [hw, hy]
          exact head?_gap_append w (h u (by simp)) y
    have ht := h t List.mem_cons_self
    rw [hy, List.cons_append, ← htokens]
    cases t with
    | word w => exact tokens_word_append ht.1 (hhead w rfl)
    | mark c => exact tokens_mark_cons (isMark_of_isProper ht) y

section Rows

variable {ts us : List Token} {c : Char}

theorem tokens_spaced (h : ∀ t ∈ ts, t.IsProper) : tokens (spaced ts) = ts := by
  have hall := tokens_spaced_append h (z := []) rfl
  rwa [tokens_nil, List.append_nil, List.append_nil] at hall

/-- Rows of tokens with canonical spaces are the same text only if they are the same. -/
theorem spaced_inj (hts : ∀ t ∈ ts, t.IsProper) (hus : ∀ t ∈ us, t.IsProper)
    (h : spaced ts = spaced us) : ts = us := by rw [← tokens_spaced hts, h, tokens_spaced hus]

theorem mem_spaced (h : c ∈ spaced ts) : c = ' ' ∨ ∃ t ∈ ts, c ∈ t.chars := by
  induction ts with
  | nil => cases h
  | cons t ts ih =>
    cases ts with
    | nil => exact .inr ⟨t, List.mem_cons_self, h⟩
    | cons u ts =>
      rw [spaced, List.mem_append, List.mem_append] at h
      rcases h with h | h | h
      · exact .inr ⟨t, List.mem_cons_self, h⟩
      · unfold gap at h
        split at h
        · exact .inl (List.mem_singleton.1 h)
        · cases h
      · rcases ih h with h | ⟨v, hv, h⟩
        · exact .inl h
        · exact .inr ⟨v, List.mem_cons_of_mem t hv, h⟩

/-- No other characters stand in the text of a type. -/
theorem notMem_spaced (h : ∀ t ∈ ts, t.IsProper) (hc : isWordChar c = false)
    (hnot : c ∉ [' ', '(', ')', '<', '>', ',', '?']) : c ∉ spaced ts := by
  intro hmem
  rcases mem_spaced hmem with rfl | ⟨t, ht, hct⟩
  · exact hnot List.mem_cons_self
  · have hproper := h t ht
    cases t with
    | mark d =>
      obtain rfl := List.mem_singleton.1 hct
      exact hnot (List.mem_cons_of_mem ' ' hproper)
    | word w => exact Bool.false_ne_true (hc.symm.trans (List.all_eq_true.1 hproper.1.2 c hct))

theorem mem_spaced_of_mark (h : .mark c ∈ ts) : c ∈ spaced ts := by
  induction ts with
  | nil => cases h
  | cons t ts ih =>
    cases ts with
    | nil =>
      obtain rfl := List.mem_singleton.1 h
      exact List.mem_singleton.2 rfl
    | cons u ts =>
      rw [spaced, List.mem_append, List.mem_append]
      rcases List.mem_cons.1 h with rfl | h
      · exact .inl (List.mem_singleton.2 rfl)
      · exact .inr (.inr (ih h))

theorem notMem_of_isProper (h : ∀ a ∈ ts, a.IsProper)
    (hc : c ∉ ['(', ')', '<', '>', ',', '?']) : .mark c ∉ ts := fun hmem => hc (h _ hmem)

end Rows

theorem wordsOf_of_isWord {n : String} (h : IsWord n) : wordsOf n.toList = [.word n] := by
  have hspace : ' ' ∉ n.toList := fun hmem => absurd (List.all_eq_true.1 h.2 ' ' hmem) (by decide)
  unfold wordsOf
  rw [parts_of_notMem hspace, List.map_singleton, String.ofList_toList]

theorem isProper_wordsOf {n : String} (hn : IsSpelled n) : ∀ t ∈ wordsOf n.toList, t.IsProper := by
  rcases hn with hn | ⟨hn, hname⟩
  · have hall : ∀ n ∈ basicTypes, ∀ t ∈ wordsOf n.toList, t.IsProper := by decide +kernel
    exact hall n hn
  · rw [wordsOf_of_isWord hn]
    exact fun t ht => List.mem_singleton.1 ht ▸ ⟨hn, hname⟩

namespace TypeExpr

theorem tokens_withMark (t : TypeExpr) (b : Bool) :
    (t.withMark b).tokens = t.tokens ++ markIf b := by
  cases b with
  | true => rfl
  | false => exact (List.append_nil _).symm

theorem tokens_generic (k : GenericKind) (t : TypeExpr) :
    (generic k [t]).tokens = .word k.tag :: .mark '<' :: (t.tokens ++ [Token.mark '>']) := by
  simp [tokens, tokensOf]

theorem tokens_record (k v : TypeExpr) : (generic .record [k, v]).tokens =
    .word (GenericKind.tag .record) :: .mark '<' ::
      (k.tokens ++ Token.mark ',' :: (v.tokens ++ [Token.mark '>'])) := by
  simp [tokens, tokensOf, List.intercalate_cons_cons]

theorem mem_intercalate {sep a : Token} {ts : List TypeExpr}
    (h : a ∈ [sep].intercalate (tokensOf ts)) : a = sep ∨ ∃ t ∈ ts, a ∈ t.tokens := by
  induction ts with
  | nil => cases h
  | cons t ts ih =>
    cases ts with
    | nil => exact .inr ⟨t, by simp, by simpa [tokensOf] using h⟩
    | cons u ts =>
      rw [intercalate_cons_cons, List.mem_append, List.mem_cons] at h
      rcases h with h | h | h
      · exact .inr ⟨t, by simp, h⟩
      · exact .inl h
      · rcases ih h with h | ⟨v, hv, h⟩
        · exact .inl h
        · exact .inr ⟨v, List.mem_cons_of_mem t hv, h⟩

end TypeExpr

/-- **Types are written with proper tokens.** -/
theorem Fits.isProper {p : Place} {t : TypeExpr} (h : Fits p t) : ∀ a ∈ t.tokens, a.IsProper := by
  have hmark (b : Bool) : ∀ a ∈ markIf b, a.IsProper := by cases b <;> decide
  induction h with
  | name hn b hb =>
    rw [TypeExpr.tokens_withMark, List.forall_mem_append]
    exact ⟨isProper_wordsOf hn, hmark b⟩
  | promise h ih =>
    rw [TypeExpr.tokens_generic]
    simp only [List.forall_mem_cons, List.forall_mem_append]
    exact ⟨by decide, by decide, ih, by decide⟩
  | list hk h b ih =>
    rw [TypeExpr.tokens_withMark, TypeExpr.tokens_generic]
    simp only [List.forall_mem_cons, List.forall_mem_append]
    rcases hk with rfl | rfl <;> exact ⟨⟨by decide, by decide, ih, by decide⟩, hmark b⟩
  | record hk hv b ihk ihv =>
    rw [TypeExpr.tokens_withMark, TypeExpr.tokens_record]
    simp only [List.forall_mem_cons, List.forall_mem_append]
    exact ⟨⟨by decide, by decide, ihk, by decide, ihv, by decide⟩, hmark b⟩
  | @union p ts hp h b ih =>
    rw [TypeExpr.tokens_withMark, TypeExpr.tokens]
    simp only [List.forall_mem_cons, List.forall_mem_append]
    refine ⟨⟨by decide, fun a ha => ?_, by decide⟩, hmark b⟩
    rcases TypeExpr.mem_intercalate ha with rfl | ⟨t, ht, ha⟩
    · decide
    · exact ih t ht a ha

end IdlDocs.Idl
