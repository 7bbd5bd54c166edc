import IdlDocs.Idl.Grammar.Members

/-!
# The grammar of definitions

The definitions of a source text, in the order in which they are tried.  The older
statement `A implements B;` is read and not kept.

* `definition`: one definition.
* `definitions`: as many definitions as the text starts with.
-/

namespace IdlDocs.Idl

open Text Text.Parser

def body {α : Type} (member : Parser α) : Parser (List α) := do
  mark "\x7b"
  let members ← many member
  mark "\x7d"
  semicolon
  return members

/-- Reads the parent after a colon, if there is one. -/
def parent : Parser (Option String) := Parser.optional do
  mark ":"
  identifier

def callbackDefinition (inner : Level) : Parser Definition := do
  let _ ← attributesOf inner
  keyword "callback"
  let name ← identifier
  mark "="
  let returns ← returnType inner
  let _ ← argumentList inner
  semicolon
  return .callback name returns

def callbackInterface (inner : Level) : Parser Definition := do
  docs
  let attributes ← attributesOf inner
  keyword "callback"
  keyword "interface"
  let name ← identifier
  let _ ← parent
  let members ← body (interfaceMember inner)
  return .interface { name, kind := .callbackInterface, attributes, members }

def interfaceDefinition (inner : Level) : Parser Definition := do
  docs
  let attributes ← attributesOf inner
  keyword "interface"
  let name ← identifier
  let parent ← parent
  let members ← body (interfaceMember inner)
  return .interface { name, parent, attributes, members }

def plainInterface (inner : Level) (kind : InterfaceKind) (isPartial : Bool)
    (keywords : List String) (member : Parser Member) : Parser Definition := do
  let attributes ← attributesOf inner
  if isPartial then keyword "partial"
  keywords.forM keyword
  let name ← identifier
  let members ← body member
  return .interface { name, kind, isPartial, attributes, members }

def mixinDefinition (inner : Level) (isPartial : Bool) : Parser Definition :=
  plainInterface inner .mixin isPartial ["interface", "mixin"] (mixinMember inner)

def namespaceDefinition (inner : Level) (isPartial : Bool) : Parser Definition :=
  plainInterface inner .namespaceObject isPartial ["namespace"] (namespaceMember inner)

def partialInterface (inner : Level) : Parser Definition :=
  plainInterface inner .interface true ["interface"] (interfaceMember inner)

def dictionaryDefinition (inner : Level) : Parser Definition := do
  docs
  let _ ← attributesOf inner
  keyword "dictionary"
  let name ← identifier
  let parent ← parent
  let fields ← body (dictionaryField inner)
  return .dictionary { name, parent, fields }

def partialDictionary (inner : Level) : Parser Definition := do
  let _ ← attributesOf inner
  keyword "partial"
  keyword "dictionary"
  let name ← identifier
  let fields ← body (dictionaryField inner)
  return .dictionary { name, isPartial := true, fields }

/-- Reads an enumeration.  A comma may stand after its last value. -/
def enumeration (inner : Level) : Parser Definition := do
  docs
  let _ ← attributesOf inner
  keyword "enum"
  let name ← identifier
  mark "\x7b"
  let values ← list1 (do docs; quotedText) (mark ",")
  let _ ← present (mark ",")
  mark "\x7d"
  semicolon
  return .enumeration { name, values }

def typeDefinition (inner : Level) : Parser Definition := do
  let _ ← attributesOf inner
  keyword "typedef"
  let type ← attributedType inner
  let name ← identifier
  semicolon
  return .typedef name type

def statement (inner : Level) (verb : String) : Parser (String × String) := do
  let _ ← attributesOf inner
  let left ← identifier
  keyword verb
  let right ← identifier
  semicolon
  return (left, right)

/-- Reads a definition; a statement that is not kept gives none. -/
def definition (inner : Level) : Parser (Option Definition) :=
  some <$> callbackDefinition inner <|>
  some <$> callbackInterface inner <|>
  some <$> interfaceDefinition inner <|>
  some <$> mixinDefinition inner false <|>
  some <$> (docs *> namespaceDefinition inner false) <|>
  some <$> dictionaryDefinition inner <|>
  some <$> partialInterface inner <|>
  some <$> mixinDefinition inner true <|>
  some <$> partialDictionary inner <|>
  some <$> namespaceDefinition inner true <|>
  some <$> enumeration inner <|>
  some <$> typeDefinition inner <|>
  (do let (target, mixin) ← statement inner "includes"; return some (.includes target mixin)) <|>
  (do let _ ← statement inner "implements"; return none)

def definitions (inner : Level) : Parser (List Definition) := do
  return (← many (definition inner)).filterMap id

end IdlDocs.Idl
