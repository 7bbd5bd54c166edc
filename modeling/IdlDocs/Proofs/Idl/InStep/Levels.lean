import IdlDocs.Proofs.Idl.InStep.Definitions
import IdlDocs.Proofs.Text.Lengths

/-!
# Levels of the grammar

Every token takes at least one character, so that a form that nests is read by the level below on
a shorter text.  A text needs therefore no more levels than it has characters, and more of them
change nothing.

* `shortens_token`: a token takes something if what stands between the blanks does.
* `tokensInStep_of_same`: texts that start with the same token are read in step.
* `definition_levelAt`: **a definition is read alike by all levels that are high enough.**
* `definition?`: the definition that a text starts with.
-/

namespace IdlDocs.Idl

open Text Text.Parser

/-! ## Tokens take something -/

section Tokens

variable {α : Type} {p : Parser α}

theorem token_apply (p : Parser α) (s : List Char) :
    token p s = (p (skipBlank s)).map fun x => (x.1, skipBlank x.2) := by
  change ((p (skipBlank s)).bind fun x => some (x.1, skipBlank x.2)) = _
  cases p (skipBlank s) <;> rfl

theorem token_eq_of_skipBlank_eq (p : Parser α) {s t : List Char}
    (h : skipBlank s = skipBlank t) : token p s = token p t := by
  rw [token_apply, token_apply, h]

theorem shortens_token (h : Shortens p) : Shortens (token p) := by
  intro s r a hs
  rw [token_apply] at hs
  obtain ⟨x, hx, he⟩ := Option.map_eq_some_iff.1 hs
  cases he
  have := h _ _ _ hx
  have := length_skipBlank_le s
  have := length_skipBlank_le x.2
  omega

theorem shortens_mark {m : String} (h : IsPlainText m) : Shortens (mark m) :=
  shortens_token (.exactly h.1)

theorem shortens_keyword {w : String} (h : IsPlainText w) : Shortens (keyword w) :=
  shortens_token ((Shortens.exactly h.1).bind fun _ => .notBefore _)

theorem shortens_identifier : Shortens identifier := by
  refine shortens_token (.after (Shortens.exactly (by decide)).keeps.present fun _ => ?_)
  exact Shortens.bind ((Shortens.satisfy _).bind fun _ => (Keeps.run _).bind fun _ => .pure _)
    fun _ => .pure _

theorem shortens_quotedText : Shortens quotedText :=
  shortens_token <| (Shortens.exactly (by decide)).bind fun _ => (Keeps.run _).bind fun _ =>
    (Shortens.exactly (by decide)).keeps.bind fun _ => .pure _

theorem shortens_exponent : Shortens exponent :=
  (Shortens.satisfy _).bind fun _ => (Shortens.satisfy _).keeps.optional.bind fun _ =>
    (Shortens.run1 _).keeps.bind fun _ => .pure _

theorem shortens_pointed : Shortens pointed :=
  .orElse
    ((Shortens.run1 _).bind fun _ => (Shortens.exactly (by decide)).keeps.bind fun _ =>
      (Keeps.run _).bind fun _ => .pure _)
    (.after (.run _) fun _ => (Shortens.exactly (by decide)).bind fun _ =>
      (Shortens.run1 _).keeps.bind fun _ => .pure _)

theorem shortens_decimal : Shortens decimal :=
  shortens_token <| .after (Shortens.exactly (by decide)).keeps.present fun _ =>
    .orElse (shortens_pointed.bind fun _ => shortens_exponent.keeps.optional.bind fun _ => .pure _)
      ((Shortens.run1 _).bind fun _ => shortens_exponent.keeps)

theorem shortens_integer : Shortens integer :=
  shortens_token <| .after (Shortens.exactly (by decide)).keeps.present fun _ =>
    .orElse ((Shortens.satisfy _).bind fun _ => (Keeps.run _).bind fun _ => .pure _) <|
    .orElse ((Shortens.exactly (by decide)).bind fun _ => (Shortens.satisfy _).keeps.bind fun _ =>
        (Keeps.run _).bind fun _ => .pure _)
      ((Shortens.exactly (by decide)).bind fun _ => (Keeps.run _).bind fun _ => .pure _)

theorem shortens_docLine : Shortens docLine := by
  intro s r a h
  rw [docLine_apply] at h
  obtain ⟨r', hr, he⟩ := Option.map_eq_some_iff.1 h
  cases he
  exact afterDoc?_length hr

end Tokens

/-- **Texts that start with the same token are read in step.** -/
theorem tokensInStep_of_same {R : List Char → List Char → Prop}
    (same : ∀ s t, R s t → skipBlank s = skipBlank t ∧ afterDoc? s = afterDoc? t)
    (rest : ∀ s t r, R s t → r.length < s.length → R r r) :
    TokensInStep (fun _ => R) Eq Eq := by
  have htoken {α : Type} {p : Parser α} (hp : Shortens (token p)) :
      InStep R R Eq (token p) (token p) :=
    hp.inStep (fun s t hst => token_eq_of_skipBlank_eq p (same s t hst).1) rest
  have hbrace (c : Char) : Shortens (token (exactly [c])) :=
    shortens_token (.exactly (List.cons_ne_nil c []))
  exact {
    mark := fun _ m hm => htoken (shortens_mark hm)
    keyword := fun _ w hw => htoken (shortens_keyword hw)
    identifier := fun _ => htoken shortens_identifier
    quotedText := fun _ => htoken shortens_quotedText
    decimal := fun _ => htoken shortens_decimal
    integer := fun _ => htoken shortens_integer
    docLine := fun _ => shortens_docLine.inStep (fun s t hst => by
      rw [docLine_apply, docLine_apply, (same s t hst).2]) rest
    openBrace := fun _ => htoken (hbrace '\x7b')
    closeBrace := fun _ => htoken (hbrace '\x7d')
    semicolon := fun _ => htoken (hbrace ';')
    last := (hbrace ';').inStep (fun s t hst => token_eq_of_skipBlank_eq _ (same s t hst).1)
      fun _ _ _ _ _ => rfl }

/-! ## Levels -/

def Short (n : Nat) (s t : List Char) : Prop := s = t ∧ s.length ≤ n

theorem tokensInStep_short (n : Nat) : TokensInStep (fun _ => Short n) Eq Eq := by
  refine tokensInStep_of_same ?_ ?_
  · rintro s t ⟨rfl, -⟩
    exact ⟨rfl, rfl⟩
  · rintro s t r ⟨-, hn⟩ hr
    exact ⟨rfl, by omega⟩

theorem enters_short (n : Nat) : Enters (fun _ => Short (n + 1)) (fun _ => Short n) where
  mark _ m hm := (shortens_mark hm).inStep (fun s t hst => congrArg (mark m) hst.1)
    fun s t r hst hr => ⟨rfl, by have := hst.2; omega⟩
  keyword _ w hw := (shortens_keyword hw).inStep (fun s t hst => congrArg (keyword w) hst.1)
    fun s t r hst hr => ⟨rfl, by have := hst.2; omega⟩
  le _ s t hst := ⟨hst.1, by have := hst.2; omega⟩

section Empty

variable {α β : Type} {p q : Parser α} {w modifier : String}

theorem bind_nil {f : α → Parser β} (hp : p [] = none) : (p >>= f) [] = none := by
  rw [bind_apply, hp]
  rfl

theorem orElse_nil (hp : p [] = none) (hq : q [] = none) : (p <|> q) [] = none := by
  rw [orElse_apply, hp, hq]
  rfl

theorem keyword_bind_nil {f : Unit → Parser α} (hw : IsPlainText w) :
    (keyword w >>= f) [] = none :=
  bind_nil (shortens_keyword hw).apply_nil

theorem keywordTypes_nil (ws : List String) (hws : ∀ w ∈ ws, IsPlainText w) :
    firstOf (ws.map keywordType) [] = none := by
  induction ws with
  | nil => rfl
  | cons w ws ih =>
    rw [List.forall_mem_cons] at hws
    exact orElse_nil (keyword_bind_nil hws.1) (ih hws.2)

theorem modified_nil (hm : IsPlainText modifier) (hw : IsPlainText w) (size : List String) :
    modified modifier (w :: size) [] = none := by
  have hpresent : present (keyword modifier) [] = some (false, []) := by
    unfold present
    rw [orElse_apply, map_apply, (shortens_keyword hm).apply_nil]
    rfl
  unfold modified
  rw [bind_apply, hpresent]
  exact bind_nil (keyword_bind_nil hw)

theorem genericType_nil {kind : GenericKind} (hk : IsPlainText kind.tag) (arg : Parser TypeExpr) :
    genericType kind arg [] = none :=
  bind_nil (keyword_bind_nil hk)

/-- A type is not empty, whatever may stand in its brackets. -/
theorem nonAnyType_nil (inner : Level) : nonAnyType inner [] = none := by
  refine orElse_nil (genericType_nil (by decide) _) ?_
  refine orElse_nil (bind_nil (orElse_nil (modified_nil (by decide) (by decide) _)
    (orElse_nil (modified_nil (by decide) (by decide) _)
      (modified_nil (by decide) (by decide) _)))) ?_
  refine orElse_nil (bind_nil (orElse_nil (modified_nil (by decide) (by decide) _)
    (modified_nil (by decide) (by decide) _))) ?_
  refine orElse_nil (keywordTypes_nil keywordsBefore (by decide)) ?_
  refine orElse_nil (bind_nil (genericType_nil (by decide) _)) ?_
  refine orElse_nil (keywordTypes_nil keywordsAfter (by decide)) ?_
  refine orElse_nil (bind_nil (genericType_nil (by decide) _)) ?_
  refine orElse_nil (bind_nil (keyword_bind_nil (by decide))) (bind_nil ?_)
  show (TypeExpr.named <$> identifier) [] = none
  rw [map_apply, shortens_identifier.apply_nil]
  rfl

end Empty

theorem levelAt_nil (n : Nat) :
    (levelAt n).nonAny [] = none ∧ (levelAt n).union [] = none ∧
      (levelAt n).attributes [] = none := by
  cases n with
  | zero => exact ⟨rfl, rfl, rfl⟩
  | succ n =>
    have hmark (m : String) (hm : IsPlainText m) : mark m [] = none := (shortens_mark hm).apply_nil
    refine ⟨nonAnyType_nil (levelAt n), ?_, ?_⟩
    · exact bind_nil (hmark "(" (by decide))
    · exact bind_nil (hmark "[" (by decide))

theorem levelsInStep_short : ∀ n m, n ≤ m →
    LevelsInStep (fun _ => Short n) (levelAt n) (levelAt m) := by
  intro n
  induction n with
  | zero =>
    intro m _
    -- The only text is the empty one, which holds none of the forms.
    have hnil {α : Type} {p q : Parser α} (hp : p [] = none) (hq : q [] = none) :
        InStep (Short 0) (Short 0) Eq p q := by
      rintro s t ⟨rfl, hs⟩
      cases List.length_eq_zero_iff.1 (Nat.le_zero.1 hs)
      exact .inl ⟨hp, hq⟩
    obtain ⟨hnonAny, hunion, hattributes⟩ := levelAt_nil m
    exact ⟨fun _ => hnil rfl hnonAny, fun _ => hnil rfl hunion, fun _ => hnil rfl hattributes⟩
  | succ n ih =>
    intro m hm
    cases m with
    | zero => omega
    | succ m =>
      exact (tokensInStep_short n).levels (tokensInStep_short (n + 1)) (enters_short n)
        (ih m (by omega))

/-- The forms that nest are read in step at every level. -/
theorem TokensInStep.levelAt {R : Nat → List Char → List Char → Prop}
    {E : List Char → List Char → Prop} {V : String → String → Prop} (h : TokensInStep R E V)
    (n : Nat) : LevelsInStep R (levelAt n) (levelAt n) := by
  induction n with
  | zero => exact ⟨fun _ => .fail, fun _ => .fail, fun _ => .fail⟩
  | succ n ih => exact h.levels h h.enters ih

/-! ## Definitions -/

theorem Definition.Like.eq {d d' : Definition} (h : Definition.Like Eq d d') : d = d' := by
  cases h with
  | same => rfl
  | @enumeration name values values' hvalues =>
    have hsame : values = values' := List.forall₂_eq_eq_eq ▸ hvalues
    rw [hsame]

theorem eq_of_like {o o' : Option Definition} (h : Option.Rel (Definition.Like Eq) o o') :
    o = o' := by
  cases h with
  | none => rfl
  | some h => rw [h.eq]

/-- **A definition is read alike by all levels that are high enough.** -/
theorem definition_levelAt {s : List Char} {n m : Nat} (hs : s.length ≤ n) (hm : n ≤ m) :
    definition (levelAt n) s = definition (levelAt m) s := by
  have hstep := (tokensInStep_short n).definition (levelsInStep_short n m hm) s s ⟨rfl, hs⟩
  rcases hstep with ⟨hp, hq⟩ | ⟨o, r, o', r', hp, hq, hlike, rfl, -⟩
  · rw [hp, hq]
  · rw [hp, hq, eq_of_like hlike]

/-- The definition that a text starts with; none for a statement that is not kept. -/
def definition? (s : List Char) : Option (Option Definition × List Char) :=
  definition (levelAt s.length) s

theorem definition_eq {s : List Char} {n : Nat} (h : s.length ≤ n) :
    definition (levelAt n) s = definition? s := (definition_levelAt (Nat.le_refl _) h).symm

end IdlDocs.Idl
