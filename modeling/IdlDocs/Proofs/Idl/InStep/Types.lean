import IdlDocs.Proofs.Idl.Blanks
import IdlDocs.Proofs.Text.InStep

/-!
# The grammar in step

What the grammar reads off a text depends on the tokens of the text alone.  This module says so
for any relation of texts: where the tokens of related texts are read in step, so are all forms
of the grammar, up to whole definitions.

Braces nest, and a semicolon outside of all braces ends a definition.  So there is a relation for
each depth of braces, and one more for what follows the end of a definition.  The only texts of
which the grammar keeps more than a name are the values of enumerations; these may differ.

* `TokensInStep`: the tokens are read in step.
* `LevelsInStep`: the forms that nest are read in step by two levels.
* `TokensInStep.typeExpr`, `TokensInStep.argumentList`, …: one law for each rule of the grammar,
  for the rules of types, of values and of extended attributes.
* `TokensInStep.levels`: **a level is in step if the level below is so on texts that have been
  entered.**
-/

namespace IdlDocs.Idl

open Text Text.Parser

/-- The characters that stand for themselves wherever the grammar reads them.  The others open or
close something, or are not read at all. -/
def isPlain (c : Char) : Bool := !"\x7b\x7d;\"/*".toList.contains c

/-- The text of a keyword or a mark, made of characters that stand for themselves. -/
def IsPlainText (w : String) : Prop := w.toList ≠ [] ∧ w.toList.all isPlain = true

instance (w : String) : Decidable (IsPlainText w) := inferInstanceAs (Decidable (_ ∧ _))

/-- Definitions that are the same up to the values of enumerations. -/
inductive Definition.Like (V : String → String → Prop) : Definition → Definition → Prop
  | same (d : Definition) (h : ∀ e, d ≠ .enumeration e) : Like V d d
  | enumeration (name : String) {values values' : List String} (h : List.Forall₂ V values values') :
      Like V (.enumeration ⟨name, values⟩) (.enumeration ⟨name, values'⟩)

/-- The tokens of related texts are read in step, at every depth of braces. -/
structure TokensInStep (R : Nat → List Char → List Char → Prop) (E : List Char → List Char → Prop)
    (V : String → String → Prop) : Prop where
  mark : ∀ k m, IsPlainText m → InStep (R k) (R k) Eq (mark m) (mark m)
  keyword : ∀ k w, IsPlainText w → InStep (R k) (R k) Eq (keyword w) (keyword w)
  identifier : ∀ k, InStep (R k) (R k) Eq identifier identifier
  quotedText : ∀ k, InStep (R k) (R k) V quotedText quotedText
  decimal : ∀ k, InStep (R k) (R k) Eq decimal decimal
  integer : ∀ k, InStep (R k) (R k) Eq integer integer
  docLine : ∀ k, InStep (R k) (R k) Eq docLine docLine
  openBrace : ∀ k, InStep (R k) (R (k + 1)) Eq (Idl.mark "\x7b") (Idl.mark "\x7b")
  closeBrace : ∀ k, InStep (R (k + 1)) (R k) Eq (Idl.mark "\x7d") (Idl.mark "\x7d")
  semicolon : ∀ k, InStep (R (k + 1)) (R (k + 1)) Eq semicolon semicolon
  /-- The semicolon that ends a definition. -/
  last : InStep (R 0) E Eq Idl.semicolon Idl.semicolon

/-- The forms that nest are read in step by two levels. -/
structure LevelsInStep (R : Nat → List Char → List Char → Prop) (inner inner' : Level) : Prop where
  nonAny : ∀ k, InStep (R k) (R k) Eq inner.nonAny inner'.nonAny
  union : ∀ k, InStep (R k) (R k) Eq inner.union inner'.union
  attributes : ∀ k, InStep (R k) (R k) Eq inner.attributes inner'.attributes

/-- Texts of the relation `S` that have been entered by a bracket are in the relation `R`, which
is part of `S`. -/
structure Enters (S R : Nat → List Char → List Char → Prop) : Prop where
  mark : ∀ k m, IsPlainText m → InStep (S k) (R k) Eq (mark m) (mark m)
  keyword : ∀ k w, IsPlainText w → InStep (S k) (R k) Eq (keyword w) (keyword w)
  le : ∀ k s t, R k s t → S k s t

namespace TokensInStep

variable {R S : Nat → List Char → List Char → Prop} {E : List Char → List Char → Prop}
  {V : String → String → Prop} {inner inner' : Level} (h : TokensInStep R E V)
  (hl : LevelsInStep R inner inner') {α : Type} (k : Nat)

include h

theorem enters : Enters R R := ⟨h.mark, h.keyword, fun _ _ _ => id⟩

/-! ## Types -/

theorem nullableMark : InStep (R k) (R k) Eq nullableMark nullableMark :=
  .present (h.mark k "?" (by decide))

theorem markable {p q : Parser TypeExpr} (hp : InStep (R k) (R k) Eq p q) :
    InStep (R k) (R k) Eq (markable p) (markable q) :=
  hp.seq fun _ => (h.nullableMark k).seq fun _ => .pure rfl

theorem keywordType {w : String} (hw : IsPlainText w) :
    InStep (R k) (R k) Eq (keywordType w) (keywordType w) :=
  (h.keyword k w hw).seq fun _ => (h.nullableMark k).seq fun _ => .pure rfl

theorem keywordTypes (ws : List String) (hws : ∀ w ∈ ws, IsPlainText w) :
    InStep (R k) (R k) Eq (firstOf (ws.map Idl.keywordType)) (firstOf (ws.map Idl.keywordType)) :=
  .firstOf ws fun w hw => h.keywordType k (hws w hw)

theorem keywords (ws : List String) (hws : ∀ w ∈ ws, IsPlainText w) :
    InStep (R k) (R k) Eq (ws.forM Idl.keyword) (ws.forM Idl.keyword) := by
  induction ws with
  | nil => exact .pure rfl
  | cons w ws ih =>
    exact (h.keyword k w (hws w List.mem_cons_self)).seq fun _ =>
      ih fun v hv => hws v (List.mem_cons_of_mem w hv)

theorem modified {modifier : String} {size : List String} (hm : IsPlainText modifier)
    (hs : ∀ w ∈ size, IsPlainText w) :
    InStep (R k) (R k) Eq (modified modifier size) (modified modifier size) :=
  (InStep.present (h.keyword k modifier hm)).seq fun _ => (h.keywords k size hs).seq fun _ =>
    .pure rfl

theorem integerType : InStep (R k) (R k) Eq integerType integerType :=
  .orElse (h.modified k (by decide) (by decide)) <|
    .orElse (h.modified k (by decide) (by decide)) (h.modified k (by decide) (by decide))

theorem floatType : InStep (R k) (R k) Eq floatType floatType :=
  .orElse (h.modified k (by decide) (by decide)) (h.modified k (by decide) (by decide))

theorem bracketed (he : Enters S R) {w : String} (hw : IsPlainText w) {p q : Parser α}
    (hp : InStep (R k) (R k) Eq p q) :
    InStep (S k) (S k) Eq (bracketed w p) (bracketed w q) :=
  (he.keyword k w hw).seq fun _ => (h.mark k "<" (by decide)).seq fun _ => hp.seq fun _ =>
    (h.mark k ">" (by decide)).seq fun _ =>
      (InStep.pure rfl).mono (fun _ _ => id) (he.le k) fun _ _ => id

theorem namedType : InStep (R k) (R k) Eq namedType namedType :=
  (h.identifier k).map fun _ _ => congrArg _

include hl

theorem unionType : InStep (R k) (R k) Eq (unionType inner) (unionType inner') :=
  h.markable k (hl.union k)

theorem typeExpr : InStep (R k) (R k) Eq (typeExpr inner) (typeExpr inner') :=
  .orElse ((h.keyword k "any" (by decide)).seq fun _ => .pure rfl) <|
    .orElse (hl.nonAny k) (h.unionType hl k)

theorem returnType : InStep (R k) (R k) Eq (returnType inner) (returnType inner') :=
  .orElse ((h.keyword k "undefined" (by decide)).seq fun _ => .pure rfl) (h.typeExpr hl k)

theorem keyType : InStep (R k) (R k) Eq (keyType inner) (keyType inner') := by
  have hwords : ∀ w ∈ ["ByteString", "DOMString", "USVString"], IsPlainText w := by decide
  exact .orElse (.firstOf _ fun w hw => (h.keyword k w (hwords w hw)).seq fun _ => .pure rfl)
    (hl.nonAny k)

omit hl in
theorem genericType (he : Enters S R) {kind : GenericKind} (hw : IsPlainText kind.tag)
    {p q : Parser TypeExpr} (hp : InStep (R k) (R k) Eq p q) :
    InStep (S k) (S k) Eq (genericType kind p) (genericType kind q) :=
  (h.bracketed k he hw hp).seq fun _ => .pure rfl

theorem recordType (he : Enters S R) :
    InStep (S k) (S k) Eq (recordType inner) (recordType inner') :=
  h.bracketed k he (by decide) <| (h.keyType hl k).seq fun _ => (h.mark k "," (by decide)).seq
    fun _ => (h.typeExpr hl k).seq fun _ => .pure rfl

/-- What stands in angle brackets is read by the level below, on texts that have been entered. -/
theorem nonAnyType (hS : TokensInStep S E V) (he : Enters S R) :
    InStep (S k) (S k) Eq (nonAnyType inner) (nonAnyType inner') := by
  refine .orElse (h.genericType k he (by decide) (h.returnType hl k)) ?_
  refine .orElse (hS.markable k (hS.integerType k)) ?_
  refine .orElse (hS.markable k (hS.floatType k)) ?_
  refine .orElse (hS.keywordTypes k keywordsBefore (by decide)) ?_
  refine .orElse (hS.markable k (h.genericType k he (by decide) (h.typeExpr hl k))) ?_
  refine .orElse (hS.keywordTypes k keywordsAfter (by decide)) ?_
  refine .orElse (hS.markable k (h.genericType k he (by decide) (h.typeExpr hl k))) ?_
  refine .orElse (hS.markable k (h.recordType hl k he)) ?_
  exact hS.markable k (hS.namedType k)

omit h in
theorem attributesOf : InStep (R k) (R k) Eq (attributesOf inner) (attributesOf inner') :=
  .orElse (hl.attributes k) (.pure rfl)

theorem unionMember : InStep (R k) (R k) Eq (unionMember inner) (unionMember inner') :=
  .orElse ((attributesOf hl k).seq fun _ => hl.nonAny k) (h.unionType hl k)

theorem unionBody (he : Enters S R) :
    InStep (S k) (S k) Eq (unionBody inner) (unionBody inner') :=
  (he.mark k "(" (by decide)).seq fun _ =>
    (InStep.list0 (h.unionMember hl k) (h.keyword k "or" (by decide))).eq_of_forall₂.seq fun _ =>
      (h.mark k ")" (by decide)).seq fun _ =>
        (InStep.pure rfl).mono (fun _ _ => id) (he.le k) fun _ _ => id

theorem attributedType : InStep (R k) (R k) Eq (attributedType inner) (attributedType inner') :=
  (attributesOf hl k).seq fun _ => h.typeExpr hl k

/-! ## Values and arguments -/

omit hl

theorem truth : InStep (R k) (R k) Eq truth truth :=
  .orElse (h.keyword k "true" (by decide)) (h.keyword k "false" (by decide))

theorem float : InStep (R k) (R k) Eq float float :=
  .orElse (h.decimal k) <| .orElse (h.keyword k "-Infinity" (by decide)) <|
    .orElse (h.keyword k "Infinity" (by decide)) (h.keyword k "NaN" (by decide))

theorem constant : InStep (R k) (R k) Eq constant constant :=
  .orElse (h.truth k) <| .orElse (h.float k) <| .orElse (h.integer k) <|
    h.keyword k "null" (by decide)

theorem literal : InStep (R k) (R k) Eq literal literal :=
  .orElse (h.truth k) <|
    .orElse ((h.mark k "[" (by decide)).seq fun _ => h.mark k "]" (by decide)) <|
    .orElse ((h.openBrace k).seq fun _ => h.closeBrace k) <| .orElse (h.float k) <|
    .orElse (h.integer k) <| .orElse (h.keyword k "null" (by decide)) <|
      (h.quotedText k).map fun _ _ _ => rfl

theorem defaultValue : InStep (R k) (R k) Eq defaultValue defaultValue :=
  (h.mark k "=" (by decide)).seq fun _ => h.literal k

include hl

theorem singleArgument :
    InStep (R k) (R k) Eq (singleArgument inner) (singleArgument inner') := by
  refine (attributesOf hl k).seq fun _ => ?_
  refine (InStep.present (h.keyword k "optional" (by decide))).seq fun mayMiss => ?_
  refine (h.attributedType hl k).seq fun _ => (h.identifier k).seq fun _ => ?_
  cases mayMiss with
  | true => exact (InStep.optional (h.defaultValue k)).seq fun _ => .pure rfl
  | false => exact .pure rfl

theorem variadicArgument :
    InStep (R k) (R k) Eq (variadicArgument inner) (variadicArgument inner') :=
  (attributesOf hl k).seq fun _ => (h.typeExpr hl k).seq fun _ =>
    (h.mark k "..." (by decide)).seq fun _ => (h.identifier k).seq fun _ => .pure rfl

theorem argumentList : InStep (R k) (R k) Eq (argumentList inner) (argumentList inner') := by
  have hargument : InStep (R k) (R k) Eq (argument inner) (argument inner') :=
    .orElse (h.singleArgument hl k) (h.variadicArgument hl k)
  exact (h.mark k "(" (by decide)).seq fun _ =>
    (InStep.list0 hargument (h.mark k "," (by decide))).eq_of_forall₂.seq fun _ =>
      (h.mark k ")" (by decide)).seq fun _ => .pure rfl

theorem extendedAttribute :
    InStep (R k) (R k) Eq (extendedAttribute inner) (extendedAttribute inner') := by
  have hname := h.identifier k
  have hequals := h.mark k "=" (by decide)
  have hcomma := h.mark k "," (by decide)
  refine .orElse (hname.seq fun _ => (h.argumentList hl k).seq fun _ => .pure rfl) ?_
  refine .orElse (hname.seq fun _ => hequals.seq fun _ => hname.seq fun _ =>
    (h.argumentList hl k).seq fun _ => .pure rfl) ?_
  refine .orElse (hname.seq fun _ => hequals.seq fun _ => (h.mark k "(" (by decide)).seq fun _ =>
    (InStep.list0 hname hcomma).eq_of_forall₂.seq fun _ => (h.mark k ")" (by decide)).seq fun _ =>
      .pure rfl) ?_
  refine .orElse (hname.seq fun _ => hequals.seq fun _ => ?_) hname
  -- The text after the sign of equality is not kept, so it may be another one.
  have hvalue : InStep (R k) (R k) (fun _ _ => True) (Idl.identifier <|> Idl.quotedText)
      (Idl.identifier <|> Idl.quotedText) :=
    .orElse (hname.mono (fun _ _ => id) (fun _ _ => id) fun _ _ _ => trivial)
      ((h.quotedText k).mono (fun _ _ => id) (fun _ _ => id) fun _ _ _ => trivial)
  exact hvalue.bind fun _ _ _ => .pure rfl

theorem attributeList (he : Enters S R) :
    InStep (S k) (S k) Eq (attributeList inner) (attributeList inner') :=
  (he.mark k "[" (by decide)).seq fun _ =>
    (InStep.list0 (h.extendedAttribute hl k) (h.mark k "," (by decide))).eq_of_forall₂.seq
      fun _ => (h.mark k "]" (by decide)).seq fun _ =>
        (InStep.pure rfl).mono (fun _ _ => id) (he.le k) fun _ _ => id

omit hl in
/-- A level is in step if the level below is so on texts that have been entered. -/
theorem levels (hS : TokensInStep S E V) (he : Enters S R) {n m : Nat}
    (hnm : LevelsInStep R (levelAt n) (levelAt m)) :
    LevelsInStep S (levelAt (n + 1)) (levelAt (m + 1)) where
  nonAny k := h.nonAnyType hnm k hS he
  union k := h.unionBody hnm k he
  attributes k := h.attributeList hnm k he

end TokensInStep

end IdlDocs.Idl
