import IdlDocs.Proofs.Idl.InStep.Levels

/-!
# Tokens in step, character by character

For two texts to be read in step it is enough to know their first characters, and what follows
the characters that open or close something.  Tokens are made of such steps.

* `CharsInStep`: what is to be known of a relation of texts.
* `CharsInStep.tokens`: **the tokens of such texts are read in step.**
-/

namespace IdlDocs.Idl

open Text Text.Parser

/-- A class of characters is plain if it has none of those that open or close something. -/
theorem isPlain_of_class {p : Char → Bool} (h : "\x7b\x7d;\"/*".toList.any p = false)
    (c : Char) (hc : p c = true) : isPlain c = true := by
  unfold isPlain
  rw [Bool.not_eq_true', ← Bool.not_eq_true, List.contains_iff_mem]
  intro hmem
  exact List.any_eq_false.1 h c hmem hc

theorem isPlain_of_isDigit : ∀ c, isDigit c = true → isPlain c = true :=
  isPlain_of_class (by decide)

/-- A text between double quotes of which the first one has been read, and what follows it. -/
def afterQuote? (s : List Char) : Option (List Char × List Char) :=
  match s.dropWhile (· ≠ '"') with
  | _ :: r => some (s.takeWhile (· ≠ '"'), r)
  | [] => none

theorem afterQuote?_eq_some_iff {s q r : List Char} :
    afterQuote? s = some (q, r) ↔ s = q ++ '"' :: r ∧ '"' ∉ q := by
  constructor
  · intro h
    unfold afterQuote? at h
    have hend := List.head?_dropWhile_not (· ≠ '"') s
    have hsplit := List.takeWhile_append_dropWhile (p := (· ≠ '"')) (l := s)
    split at h
    · next c r' hr =>
      rw [hr] at hend hsplit
      simp only [List.head?_cons, ne_eq, decide_not, Bool.not_eq_eq_eq_not, Bool.not_false,
        decide_eq_true_eq] at hend
      cases h
      subst hend
      refine ⟨hsplit.symm, fun hmem => ?_⟩
      simpa using List.all_eq_true.1 List.all_takeWhile _ hmem
    · cases h
  · rintro ⟨rfl, hq⟩
    have hpos : ∀ c ∈ q, decide (c ≠ '"') = true := by
      intro c hc
      simpa using fun he : c = '"' => hq (he ▸ hc)
    unfold afterQuote?
    rw [List.takeWhile_append_of_pos hpos, List.dropWhile_append_of_pos hpos]
    simp

theorem afterQuote?_length {s : List Char} {x : List Char × List Char}
    (h : afterQuote? s = some x) : x.2.length < s.length := by
  have hs := (afterQuote?_eq_some_iff.1 h).1
  rw [hs, List.length_append, List.length_cons]
  omega

def betweenQuotes : Parser String := do
  exactly ['"']
  let cs ← run (· ≠ '"')
  exactly ['"']
  return String.ofList cs

theorem betweenQuotes_apply (s : List Char) :
    betweenQuotes ('"' :: s) = (afterQuote? s).map fun x => (String.ofList x.1, x.2) := by
  unfold betweenQuotes afterQuote?
  simp only [bind_apply, pure_apply, Parser.exactly, Parser.run, dropLead?, if_true,
    Option.map_some, Option.bind_some]
  have hend := List.head?_dropWhile_not (· ≠ '"') s
  cases hs : s.dropWhile (· ≠ '"') with
  | nil => rfl
  | cons c r =>
    rw [hs] at hend
    simp only [List.head?_cons, ne_eq, decide_not, Bool.not_eq_eq_eq_not, Bool.not_false,
      decide_eq_true_eq] at hend
    subst hend
    rfl

/-- Related texts start with the same character, and are related again behind it, each at its
depth of braces. -/
structure CharsInStep (R : Nat → List Char → List Char → Prop) (E : List Char → List Char → Prop)
    (V : String → String → Prop) : Prop where
  head : ∀ k s t, R k s t → s.head? = t.head?
  plain : ∀ k c s t, isPlain c = true → R k (c :: s) (c :: t) → R k s t
  blank : ∀ k, InStep (R k) (R k) Eq blank blank
  quoted : ∀ k s t, R k ('"' :: s) ('"' :: t) →
    Option.Rel (fun x y => V (String.ofList x.1) (String.ofList y.1) ∧ R k x.2 y.2)
      (afterQuote? s) (afterQuote? t)
  doc : ∀ k s t, R k s t → Option.Rel (R k) (afterDoc? s) (afterDoc? t)
  openBrace : ∀ k s t, R k ('\x7b' :: s) ('\x7b' :: t) → R (k + 1) s t
  closeBrace : ∀ k s t, R (k + 1) ('\x7d' :: s) ('\x7d' :: t) → R k s t
  semicolon : ∀ k s t, R (k + 1) (';' :: s) (';' :: t) → R (k + 1) s t
  /-- The semicolon that ends a definition. -/
  last : ∀ s t, R 0 (';' :: s) (';' :: t) → E (skipBlank s) (skipBlank t)

namespace CharsInStep

variable {R : Nat → List Char → List Char → Prop} {E : List Char → List Char → Prop}
  {V : String → String → Prop} (h : CharsInStep R E V) (k : Nat)

include h

theorem cases {s t : List Char} (hst : R k s t) :
    (s = [] ∧ t = []) ∨ ∃ c s' t', s = c :: s' ∧ t = c :: t' := by
  have hhead := h.head k s t hst
  cases s with
  | nil => exact .inl ⟨rfl, List.head?_eq_none_iff.1 hhead.symm⟩
  | cons c s =>
    obtain ⟨t', rfl⟩ := List.head?_eq_some_iff.1 hhead.symm
    exact .inr ⟨c, s, t', rfl, rfl⟩

/-! ## Characters -/

theorem satisfy {p : Char → Bool} (hp : ∀ c, p c = true → isPlain c = true) :
    InStep (R k) (R k) Eq (Parser.satisfy p) (Parser.satisfy p) := by
  intro s t hst
  rcases h.cases k hst with ⟨rfl, rfl⟩ | ⟨c, s', t', rfl, rfl⟩
  · exact .inl ⟨rfl, rfl⟩
  · cases hc : p c with
    | false => exact .inl ⟨by simp [Parser.satisfy, hc], by simp [Parser.satisfy, hc]⟩
    | true =>
      refine .inr ⟨c, s', c, t', by simp [Parser.satisfy, hc], by simp [Parser.satisfy, hc], rfl,
        h.plain k c s' t' (hp c hc) hst, .inl ⟨by simp, by simp⟩⟩

/-- By induction on the first text. -/
theorem run {p : Char → Bool} (hp : ∀ c, p c = true → isPlain c = true) :
    InStep (R k) (R k) Eq (Parser.run p) (Parser.run p) := by
  intro s
  induction s with
  | nil =>
    intro t hst
    rcases h.cases k hst with ⟨-, rfl⟩ | ⟨c, s', t', hs, -⟩
    · exact .inr ⟨[], [], [], [], rfl, rfl, rfl, hst, .refl _ _⟩
    · cases hs
  | cons c s ih =>
    intro t hst
    rcases h.cases k hst with ⟨hs, -⟩ | ⟨d, s', t, hs, rfl⟩
    · cases hs
    · cases hs
      unfold Parser.run
      cases hc : p c with
      | false =>
        rw [List.takeWhile_cons_of_neg (by simp [hc]), List.dropWhile_cons_of_neg (by simp [hc]),
          List.takeWhile_cons_of_neg (by simp [hc]), List.dropWhile_cons_of_neg (by simp [hc])]
        exact .inr ⟨[], _, [], _, rfl, rfl, rfl, hst, .refl _ _⟩
      | true =>
        rw [List.takeWhile_cons_of_pos hc, List.dropWhile_cons_of_pos hc,
          List.takeWhile_cons_of_pos hc, List.dropWhile_cons_of_pos hc]
        rcases ih t (h.plain k c s t (hp c hc) hst) with
          ⟨hnone, -⟩ | ⟨a, r, b, r', hs, ht, hab, hr, hgo⟩
        · cases hnone
        · cases hs
          cases ht
          have := hgo.length_le
          refine .inr ⟨_, _, _, _, rfl, rfl, congrArg (c :: ·) hab, hr, .inl ?_⟩
          simp only [List.length_cons]
          omega

theorem run1 {p : Char → Bool} (hp : ∀ c, p c = true → isPlain c = true) :
    InStep (R k) (R k) Eq (Parser.run1 p) (Parser.run1 p) :=
  (h.satisfy k hp).seq fun _ => (h.run k hp).seq fun _ => .pure rfl

theorem notBefore (p : Char → Bool) :
    InStep (R k) (R k) Eq (Parser.notBefore p) (Parser.notBefore p) := by
  intro s t hst
  rcases h.cases k hst with ⟨rfl, rfl⟩ | ⟨c, s', t', rfl, rfl⟩
  · exact .inr ⟨(), _, (), _, rfl, rfl, rfl, hst, .refl _ _⟩
  · cases hc : p c with
    | true => exact .inl ⟨by simp [Parser.notBefore, hc], by simp [Parser.notBefore, hc]⟩
    | false =>
      exact .inr ⟨(), _, (), _, by simp only [Parser.notBefore, hc]; rfl,
        by simp only [Parser.notBefore, hc]; rfl, rfl, hst, .refl _ _⟩

/-- One given character, behind which another relation holds. -/
theorem character {S : List Char → List Char → Prop} {c : Char}
    (hc : ∀ s t, R k (c :: s) (c :: t) → S s t) :
    InStep (R k) S Eq (exactly [c]) (exactly [c]) := by
  intro s t hst
  rcases h.cases k hst with ⟨rfl, rfl⟩ | ⟨d, s', t', rfl, rfl⟩
  · exact .inl ⟨rfl, rfl⟩
  · by_cases hd : c = d
    · subst hd
      exact .inr ⟨(), s', (), t', by simp [exactly, dropLead?], by simp [exactly, dropLead?], rfl,
        hc s' t' hst, .inl ⟨by simp, by simp⟩⟩
    · exact .inl ⟨by simp [exactly, dropLead?, hd], by simp [exactly, dropLead?, hd]⟩

theorem exactly {w : List Char} (hw : w.all isPlain = true) :
    InStep (R k) (R k) Eq (Parser.exactly w) (Parser.exactly w) := by
  induction w with
  | nil => exact fun s t hst => .inr ⟨(), s, (), t, rfl, rfl, rfl, hst, .refl s t⟩
  | cons c w ih =>
    have hcons : Parser.exactly (c :: w) = (do Parser.exactly [c]; Parser.exactly w) := by
      funext s
      rw [bind_apply]
      cases s with
      | nil => rfl
      | cons d s => by_cases hd : c = d <;> simp [Parser.exactly, dropLead?, hd]
    rw [hcons]
    obtain ⟨hc, hw⟩ := Bool.and_eq_true_iff.1 hw
    exact (h.character k fun s t => h.plain k c s t hc).seq fun _ => ih hw

/-! ## Tokens -/

theorem token {j : Nat} {α β : Type} {W : α → β → Prop} {p : Parser α} {q : Parser β}
    (hpq : InStep (R k) (R j) W p q) : InStep (R k) (R j) W (token p) (token q) :=
  (h.blank k).seq fun _ => hpq.bind fun _ _ hw => (h.blank j).seq fun _ => .pure hw

theorem identifier : InStep (R k) (R k) Eq identifier identifier := by
  have hword : InStep (R k) (R k) Eq word word :=
    (h.satisfy k (isPlain_of_class (by decide))).seq fun _ =>
      (h.run k (isPlain_of_class (by decide))).seq fun _ => .pure rfl
  exact h.token k <| (InStep.present (h.exactly k (by decide))).seq fun _ =>
    hword.seq fun _ => .pure rfl

theorem mark {m : String} (hm : IsPlainText m) : InStep (R k) (R k) Eq (mark m) (mark m) :=
  h.token k (h.exactly k hm.2)

theorem keyword {w : String} (hw : IsPlainText w) :
    InStep (R k) (R k) Eq (keyword w) (keyword w) :=
  h.token k ((h.exactly k hw.2).seq fun _ => h.notBefore k _)

theorem betweenQuotes : InStep (R k) (R k) V betweenQuotes betweenQuotes := by
  intro s t hst
  rcases h.cases k hst with ⟨rfl, rfl⟩ | ⟨c, s, t, rfl, rfl⟩
  · exact .inl ⟨rfl, rfl⟩
  by_cases hc : c = '"'
  · subst hc
    rw [betweenQuotes_apply, betweenQuotes_apply]
    have hquoted := h.quoted k s t hst
    cases hs : afterQuote? s <;> cases ht : afterQuote? t <;> rw [hs, ht] at hquoted
    case none.none => exact .inl ⟨rfl, rfl⟩
    case none.some => cases hquoted
    case some.none => cases hquoted
    case some.some x y =>
      cases hquoted with
      | some hxy =>
        have := afterQuote?_length hs
        have := afterQuote?_length ht
        refine .inr ⟨_, x.2, _, y.2, rfl, rfl, hxy.1, hxy.2, .inl ?_⟩
        simp only [List.length_cons]
        omega
  · have hnone (s : List Char) : Idl.betweenQuotes (c :: s) = none := by
      simp [Idl.betweenQuotes, bind_apply, Parser.exactly, dropLead?, Ne.symm hc]
    exact .inl ⟨hnone s, hnone t⟩

theorem quotedText : InStep (R k) (R k) V quotedText quotedText :=
  h.token k (h.betweenQuotes k)

theorem docLine : InStep (R k) (R k) Eq docLine docLine := by
  intro s t hst
  rw [docLine_apply, docLine_apply]
  have hdoc := h.doc k s t hst
  cases hs : afterDoc? s <;> cases ht : afterDoc? t <;> rw [hs, ht] at hdoc
  case none.none => exact .inl ⟨rfl, rfl⟩
  case none.some => cases hdoc
  case some.none => cases hdoc
  case some.some r r' =>
    cases hdoc with
    | some hr =>
      exact .inr ⟨(), r, (), r', rfl, rfl, rfl, hr, .inl ⟨afterDoc?_length hs, afterDoc?_length ht⟩⟩

theorem sign : InStep (R k) (R k) Eq (Parser.present (Parser.exactly ['-']))
    (Parser.present (Parser.exactly ['-'])) :=
  .present (h.exactly k (by decide))

theorem exponent : InStep (R k) (R k) Eq exponent exponent :=
  (h.satisfy k (isPlain_of_class (by decide))).seq fun _ =>
    (InStep.optional (h.satisfy k (isPlain_of_class (by decide)))).seq fun _ =>
      (h.run1 k isPlain_of_isDigit).seq fun _ => .pure rfl

theorem pointed : InStep (R k) (R k) Eq pointed pointed :=
  .orElse
    ((h.run1 k isPlain_of_isDigit).seq fun _ => (h.exactly k (by decide)).seq fun _ =>
      (h.run k isPlain_of_isDigit).seq fun _ => .pure rfl)
    ((h.run k isPlain_of_isDigit).seq fun _ => (h.exactly k (by decide)).seq fun _ =>
      (h.run1 k isPlain_of_isDigit).seq fun _ => .pure rfl)

theorem decimal : InStep (R k) (R k) Eq decimal decimal :=
  h.token k <| (h.sign k).seq fun _ =>
    .orElse ((h.pointed k).seq fun _ => (InStep.optional (h.exponent k)).seq fun _ => .pure rfl)
      ((h.run1 k isPlain_of_isDigit).seq fun _ => h.exponent k)

theorem integer : InStep (R k) (R k) Eq integer integer := by
  have hclass {p : Char → Bool} (hp : "\x7b\x7d;\"/*".toList.any p = false) :
      InStep (R k) (R k) Eq (Parser.run p) (Parser.run p) := h.run k (isPlain_of_class hp)
  refine h.token k <| (h.sign k).seq fun _ => .orElse ?_ (.orElse ?_ ?_)
  · exact (h.satisfy k (isPlain_of_class (by decide))).seq fun _ =>
      (hclass (by decide)).seq fun _ => .pure rfl
  · exact (h.exactly k (by decide)).seq fun _ =>
      (h.satisfy k (isPlain_of_class (by decide))).seq fun _ =>
        (hclass (by decide)).seq fun _ => .pure rfl
  · exact (h.exactly k (by decide)).seq fun _ => (hclass (by decide)).seq fun _ => .pure rfl

/-- The semicolon that ends a definition.  What follows it is in another relation, so the blanks
behind it are skipped together with it. -/
theorem lastSemicolon : InStep (R 0) E Eq Idl.semicolon Idl.semicolon := by
  refine (h.blank 0).seq fun _ s t hst => ?_
  rcases h.cases 0 hst with ⟨rfl, rfl⟩ | ⟨c, s, t, rfl, rfl⟩
  · exact .inl ⟨rfl, rfl⟩
  by_cases hc : ';' = c
  · subst hc
    have := length_skipBlank_le s
    have := length_skipBlank_le t
    refine .inr ⟨(), skipBlank s, (), skipBlank t, rfl, rfl, rfl, h.last s t hst, .inl ?_⟩
    simp only [List.length_cons]
    omega
  · exact .inl ⟨by simp [bind_apply, Parser.exactly, dropLead?, hc],
      by simp [bind_apply, Parser.exactly, dropLead?, hc]⟩

/-- **The tokens of texts that are in step character by character are read in step.** -/
theorem tokens : TokensInStep R E V where
  mark k _ := h.mark k
  keyword k _ := h.keyword k
  identifier := h.identifier
  quotedText := h.quotedText
  decimal := h.decimal
  integer := h.integer
  docLine := h.docLine
  openBrace k := h.token k (h.character k (h.openBrace k))
  closeBrace k := h.token _ (h.character _ (h.closeBrace k))
  semicolon k := h.token _ (h.character _ (h.semicolon k))
  last := h.lastSemicolon

end CharsInStep

end IdlDocs.Idl
