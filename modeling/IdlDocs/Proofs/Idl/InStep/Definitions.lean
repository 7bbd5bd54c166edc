import IdlDocs.Proofs.Idl.InStep.Types

/-!
# Members and definitions in step

Where the tokens of related texts are read in step, so are members and whole definitions.  A body
goes one brace down and up again, and the semicolon behind it is the last one of the definition.

* `TokensInStep.interfaceMember`, `TokensInStep.dictionaryField`, …: one law for each kind of
  members.
* `TokensInStep.body`: a list of members between braces.
* `TokensInStep.definition`: **definitions are read in step.**
-/

namespace IdlDocs.Idl

open Text Text.Parser

namespace TokensInStep

variable {R : Nat → List Char → List Char → Prop} {E : List Char → List Char → Prop}
  {V : String → String → Prop} {inner inner' : Level} (h : TokensInStep R E V)
  (hl : LevelsInStep R inner inner') (k : Nat)

include h

theorem docs : InStep (R k) (R k) Eq docs docs :=
  (InStep.many (h.docLine k)).map fun _ _ _ => rfl

/-! ## Members -/

theorem constantType : InStep (R k) (R k) Eq constantType constantType := by
  have hwords : ∀ w ∈ ["boolean", "byte", "octet"], IsPlainText w := by decide
  refine InStep.seq (.orElse (h.integerType k) (.orElse (h.floatType k) (.orElse ?_ ?_))) fun _ =>
    (h.nullableMark k).seq fun _ => .pure rfl
  · exact .firstOf _ fun w hw => (h.keyword k w (hwords w hw)).seq fun _ => .pure rfl
  · exact h.namedType k

theorem qualifier {choices : List (String × Qualifier)}
    (hc : ∀ c ∈ choices, IsPlainText c.1) :
    InStep (R k) (R k) Eq (qualifier choices) (qualifier choices) :=
  .optional <| .firstOf choices fun c hmem => (h.keyword k c.1 (hc c hmem)).seq fun _ => .pure rfl

include hl

theorem constantMember :
    InStep (R (k + 1)) (R (k + 1)) Eq (constantMember inner) (constantMember inner') :=
  (attributesOf hl _).seq fun _ => (h.keyword _ "const" (by decide)).seq fun _ =>
    (h.constantType _).seq fun _ => (h.identifier _).seq fun _ =>
      (h.mark _ "=" (by decide)).seq fun _ => (h.constant _).seq fun _ =>
        (h.semicolon k).seq fun _ => .pure rfl

theorem attributeBody :
    InStep (R (k + 1)) (R (k + 1)) Eq (attributeBody inner) (attributeBody inner') :=
  (h.keyword _ "attribute" (by decide)).seq fun _ => (h.attributedType hl _).seq fun _ =>
    (h.identifier _).seq fun _ => (h.semicolon k).seq fun _ => .pure rfl

theorem attributeMember :
    InStep (R (k + 1)) (R (k + 1)) Eq (attributeMember inner) (attributeMember inner') :=
  (attributesOf hl _).seq fun _ => (h.qualifier _ (by decide)).seq fun _ =>
    (InStep.present (h.keyword _ "readonly" (by decide))).seq fun _ =>
      (h.attributeBody hl k).seq fun _ => .pure rfl

theorem constructorMember :
    InStep (R (k + 1)) (R (k + 1)) Eq (constructorMember inner) (constructorMember inner') :=
  (h.docs _).seq fun _ => (attributesOf hl _).seq fun _ =>
    (h.keyword _ "constructor" (by decide)).seq fun _ => (h.argumentList hl _).seq fun _ =>
      (h.semicolon k).seq fun _ => .pure rfl

theorem operationBody :
    InStep (R (k + 1)) (R (k + 1)) Eq (operationBody inner) (operationBody inner') :=
  (h.returnType hl _).seq fun _ => (InStep.optional (h.identifier _)).seq fun _ =>
    (h.argumentList hl _).seq fun _ => (h.semicolon k).seq fun _ => .pure rfl

theorem operationMember :
    InStep (R (k + 1)) (R (k + 1)) Eq (operationMember inner) (operationMember inner') :=
  (h.docs _).seq fun _ => (attributesOf hl _).seq fun _ =>
    (h.qualifier _ (by decide)).seq fun _ => (h.qualifier _ (by decide)).seq fun _ =>
      (h.operationBody hl k).seq fun _ => .pure rfl

theorem oneType : InStep (R k) (R k) Eq (oneType inner) (oneType inner') :=
  (h.mark k "<" (by decide)).seq fun _ => (h.attributedType hl k).seq fun _ =>
    h.mark k ">" (by decide)

theorem twoTypes : InStep (R k) (R k) Eq (twoTypes inner) (twoTypes inner') :=
  (h.mark k "<" (by decide)).seq fun _ => (h.attributedType hl k).seq fun _ =>
    (h.mark k "," (by decide)).seq fun _ => (h.attributedType hl k).seq fun _ =>
      h.mark k ">" (by decide)

theorem declaration (name : String) {rest rest' : Parser Unit}
    (hr : InStep (R (k + 1)) (R (k + 1)) Eq rest rest') :
    InStep (R (k + 1)) (R (k + 1)) Eq (declaration inner name rest)
      (declaration inner' name rest') :=
  (attributesOf hl _).seq fun _ => hr.seq fun _ => (h.semicolon k).seq fun _ => .pure rfl

theorem declarationMember :
    InStep (R (k + 1)) (R (k + 1)) Eq (declarationMember inner) (declarationMember inner') := by
  have hone := h.oneType hl (k + 1)
  have htwo := h.twoTypes hl (k + 1)
  have hiterable := h.keyword (k + 1) "iterable" (by decide)
  have hreadonly := InStep.present (h.keyword (k + 1) "readonly" (by decide))
  have hasync {types types' : Parser Unit}
      (ht : InStep (R (k + 1)) (R (k + 1)) Eq types types') :
      InStep (R (k + 1)) (R (k + 1)) Eq (declarationMember.asynchronous inner types)
        (declarationMember.asynchronous inner' types') :=
    (h.keyword _ "async" (by decide)).seq fun _ => hiterable.seq fun _ => ht.seq fun _ =>
      (InStep.optional (h.argumentList hl _)).seq fun _ => .pure rfl
  refine .orElse (h.declaration hl k _ (hiterable.seq fun _ => hone)) ?_
  refine .orElse (h.declaration hl k _ (hiterable.seq fun _ => htwo)) ?_
  refine .orElse (h.declaration hl k _ (hasync hone)) ?_
  refine .orElse (h.declaration hl k _ (hasync htwo)) ?_
  refine .orElse (h.declaration hl k _ (hreadonly.seq fun _ =>
    (h.keyword _ "maplike" (by decide)).seq fun _ => htwo)) ?_
  refine .orElse (h.declaration hl k _ (hreadonly.seq fun _ =>
    (h.keyword _ "setlike" (by decide)).seq fun _ => hone)) ?_
  exact h.declaration hl k _ (h.keyword _ "stringifier" (by decide))

theorem interfaceMember :
    InStep (R (k + 1)) (R (k + 1)) Eq (interfaceMember inner) (interfaceMember inner') :=
  .orElse (h.constantMember hl k) <| .orElse (h.attributeMember hl k) <|
    .orElse (h.constructorMember hl k) <|
      .orElse (h.operationMember hl k) (h.declarationMember hl k)

theorem mixinMember :
    InStep (R (k + 1)) (R (k + 1)) Eq (mixinMember inner) (mixinMember inner') := by
  have hstringifier := InStep.present (h.keyword (k + 1) "stringifier" (by decide))
  refine .orElse (h.constantMember hl k) (.orElse ?_ (.orElse ?_ ?_))
  · exact (attributesOf hl _).seq fun _ => hstringifier.seq fun _ =>
      (h.operationBody hl k).seq fun _ => .pure rfl
  · exact (attributesOf hl _).seq fun _ => hstringifier.seq fun _ =>
      (InStep.present (h.keyword _ "readonly" (by decide))).seq fun _ =>
        (h.attributeBody hl k).seq fun _ => .pure rfl
  · exact h.declaration hl k _ (h.keyword _ "stringifier" (by decide))

theorem namespaceMember :
    InStep (R (k + 1)) (R (k + 1)) Eq (namespaceMember inner) (namespaceMember inner') := by
  refine .orElse ?_ ?_
  · exact (h.docs _).seq fun _ => (attributesOf hl _).seq fun _ =>
      (h.operationBody hl k).seq fun _ => .pure rfl
  · exact (h.docs _).seq fun _ => (attributesOf hl _).seq fun _ =>
      (h.keyword _ "readonly" (by decide)).seq fun _ => (h.attributeBody hl k).seq fun _ =>
        .pure rfl

theorem dictionaryField :
    InStep (R (k + 1)) (R (k + 1)) Eq (dictionaryField inner) (dictionaryField inner') :=
  (h.docs _).seq fun _ => (attributesOf hl _).seq fun _ =>
    (InStep.present (h.keyword _ "required" (by decide))).seq fun _ =>
      (h.typeExpr hl _).seq fun _ => (h.identifier _).seq fun _ =>
        (InStep.optional (h.defaultValue _)).seq fun _ => (h.semicolon k).seq fun _ => .pure rfl

/-! ## Definitions -/

omit hl in
theorem body {α : Type} {member member' : Parser α}
    (hm : InStep (R 1) (R 1) Eq member member') :
    InStep (R 0) E Eq (body member) (body member') :=
  (h.openBrace 0).seq fun _ => (InStep.many hm).eq_of_forall₂.seq fun _ =>
    (h.closeBrace 0).seq fun _ => h.last.seq fun _ => .pure rfl

omit hl in
theorem parent : InStep (R 0) (R 0) Eq parent parent :=
  .optional ((h.mark 0 ":" (by decide)).seq fun _ => h.identifier 0)

theorem callbackDefinition :
    InStep (R 0) E (Definition.Like V) (callbackDefinition inner) (callbackDefinition inner') :=
  (attributesOf hl _).seq fun _ => (h.keyword _ "callback" (by decide)).seq fun _ =>
    (h.identifier _).seq fun _ => (h.mark _ "=" (by decide)).seq fun _ =>
      (h.returnType hl _).seq fun _ => (h.argumentList hl _).seq fun _ => h.last.seq fun _ =>
        .pure (.same _ nofun)

theorem callbackInterface :
    InStep (R 0) E (Definition.Like V) (callbackInterface inner) (callbackInterface inner') :=
  (h.docs _).seq fun _ => (attributesOf hl _).seq fun _ =>
    (h.keyword _ "callback" (by decide)).seq fun _ =>
      (h.keyword _ "interface" (by decide)).seq fun _ => (h.identifier _).seq fun _ =>
        h.parent.seq fun _ => (h.body (h.interfaceMember hl 0)).seq fun _ => .pure (.same _ nofun)

theorem interfaceDefinition :
    InStep (R 0) E (Definition.Like V) (interfaceDefinition inner) (interfaceDefinition inner') :=
  (h.docs _).seq fun _ => (attributesOf hl _).seq fun _ =>
    (h.keyword _ "interface" (by decide)).seq fun _ => (h.identifier _).seq fun _ =>
      h.parent.seq fun _ => (h.body (h.interfaceMember hl 0)).seq fun _ => .pure (.same _ nofun)

theorem plainInterface (kind : InterfaceKind) (isPartial : Bool) {words : List String}
    (hw : ∀ w ∈ words, IsPlainText w) {member member' : Parser Member}
    (hm : InStep (R 1) (R 1) Eq member member') :
    InStep (R 0) E (Definition.Like V) (plainInterface inner kind isPartial words member)
      (plainInterface inner' kind isPartial words member') := by
  refine (attributesOf hl _).seq fun attributes => ?_
  have hrest : InStep (R 0) E (Definition.Like V) (do
      words.forM Idl.keyword
      let name ← Idl.identifier
      let members ← Idl.body member
      return Definition.interface { name, kind, isPartial, attributes, members }) (do
      words.forM Idl.keyword
      let name ← Idl.identifier
      let members ← Idl.body member'
      return Definition.interface { name, kind, isPartial, attributes, members }) :=
    (h.keywords _ words hw).seq fun _ => (h.identifier _).seq fun _ =>
      (h.body hm).seq fun _ => .pure (.same _ nofun)
  cases isPartial with
  | false => exact hrest
  | true => exact (h.keyword _ "partial" (by decide)).seq fun _ => hrest

theorem mixinDefinition (isPartial : Bool) :
    InStep (R 0) E (Definition.Like V) (mixinDefinition inner isPartial)
      (mixinDefinition inner' isPartial) :=
  h.plainInterface hl _ _ (by decide) (h.mixinMember hl 0)

theorem namespaceDefinition (isPartial : Bool) :
    InStep (R 0) E (Definition.Like V) (namespaceDefinition inner isPartial)
      (namespaceDefinition inner' isPartial) :=
  h.plainInterface hl _ _ (by decide) (h.namespaceMember hl 0)

theorem dictionaryDefinition :
    InStep (R 0) E (Definition.Like V) (dictionaryDefinition inner) (dictionaryDefinition inner') :=
  (h.docs _).seq fun _ => (attributesOf hl _).seq fun _ =>
    (h.keyword _ "dictionary" (by decide)).seq fun _ => (h.identifier _).seq fun _ =>
      h.parent.seq fun _ => (h.body (h.dictionaryField hl 0)).seq fun _ => .pure (.same _ nofun)

theorem partialDictionary :
    InStep (R 0) E (Definition.Like V) (partialDictionary inner) (partialDictionary inner') :=
  (attributesOf hl _).seq fun _ => (h.keyword _ "partial" (by decide)).seq fun _ =>
    (h.keyword _ "dictionary" (by decide)).seq fun _ => (h.identifier _).seq fun _ =>
      (h.body (h.dictionaryField hl 0)).seq fun _ => .pure (.same _ nofun)

/-- The values of an enumeration are the only texts that are kept. -/
theorem enumeration :
    InStep (R 0) E (Definition.Like V) (enumeration inner) (enumeration inner') := by
  have hvalue : InStep (R 1) (R 1) V (do Idl.docs; Idl.quotedText)
      (do Idl.docs; Idl.quotedText) := (h.docs 1).seq fun _ => h.quotedText 1
  have hcomma := h.mark 1 "," (by decide)
  exact (h.docs _).seq fun _ => (attributesOf hl _).seq fun _ =>
    (h.keyword _ "enum" (by decide)).seq fun _ => (h.identifier _).seq fun _ =>
      (h.openBrace 0).seq fun _ => (InStep.list1 hvalue hcomma).bind fun _ _ hvalues =>
        (InStep.present hcomma).seq fun _ => (h.closeBrace 0).seq fun _ => h.last.seq fun _ =>
          .pure (.enumeration _ hvalues)

theorem typeDefinition :
    InStep (R 0) E (Definition.Like V) (typeDefinition inner) (typeDefinition inner') :=
  (attributesOf hl _).seq fun _ => (h.keyword _ "typedef" (by decide)).seq fun _ =>
    (h.attributedType hl _).seq fun _ => (h.identifier _).seq fun _ => h.last.seq fun _ =>
      .pure (.same _ nofun)

theorem statement {verb : String} (hv : IsPlainText verb) :
    InStep (R 0) E Eq (statement inner verb) (statement inner' verb) :=
  (attributesOf hl _).seq fun _ => (h.identifier _).seq fun _ => (h.keyword _ verb hv).seq fun _ =>
    (h.identifier _).seq fun _ => h.last.seq fun _ => .pure rfl

/-- **Definitions are read in step**, and are the same up to the values of enumerations. -/
theorem definition :
    InStep (R 0) E (Option.Rel (Definition.Like V)) (definition inner) (definition inner') := by
  have hsome {p q : Parser Definition} (hp : InStep (R 0) E (Definition.Like V) p q) :
      InStep (R 0) E (Option.Rel (Definition.Like V)) (some <$> p) (some <$> q) :=
    hp.map fun _ _ hd => .some hd
  refine .orElse (hsome (h.callbackDefinition hl)) ?_
  refine .orElse (hsome (h.callbackInterface hl)) ?_
  refine .orElse (hsome (h.interfaceDefinition hl)) ?_
  refine .orElse (hsome (h.mixinDefinition hl false)) ?_
  refine .orElse (hsome ((h.docs 0).seq fun _ => h.namespaceDefinition hl false)) ?_
  refine .orElse (hsome (h.dictionaryDefinition hl)) ?_
  refine .orElse (hsome (h.plainInterface hl _ _ (by decide) (h.interfaceMember hl 0))) ?_
  refine .orElse (hsome (h.mixinDefinition hl true)) ?_
  refine .orElse (hsome (h.partialDictionary hl)) ?_
  refine .orElse (hsome (h.namespaceDefinition hl true)) ?_
  refine .orElse (hsome (h.enumeration hl)) ?_
  refine .orElse (hsome (h.typeDefinition hl)) (.orElse ?_ ?_)
  · exact (h.statement hl (by decide)).seq fun x => .pure (.some (.same _ nofun))
  · exact (h.statement hl (by decide)).seq fun _ => .pure .none

end TokensInStep

end IdlDocs.Idl
