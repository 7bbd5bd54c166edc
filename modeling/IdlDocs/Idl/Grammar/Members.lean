import IdlDocs.Idl.Grammar.Types

/-!
# The grammar of members

What stands between the braces of an interface, a mixin, a namespace and a
dictionary.  Constants, attributes, constructors and operations keep their extended
attributes; declarations such as `iterable` keep nothing but their keyword.

* `interfaceMember`, `mixinMember`, `namespaceMember`: members, by what they stand in.
* `dictionaryField`: the fields of a dictionary.
-/

namespace IdlDocs.Idl

open Text Text.Parser

def semicolon : Parser Unit := mark ";"

/-- Reads the type of a constant.  Its nullable mark is dropped. -/
def constantType : Parser TypeExpr := do
  let t ← integerType <|> floatType <|>
    firstOf (["boolean", "byte", "octet"].map fun w => do
      keyword w
      return .named w) <|>
    namedType
  let _ ← nullableMark
  return t

def constantMember (inner : Level) : Parser Member := do
  let attributes ← attributesOf inner
  keyword "const"
  let type ← constantType
  let name ← identifier
  mark "="
  constant
  semicolon
  return { Member.ofConstant name type with attributes }

/-- Reads a qualifier by its keyword, if one of them is there. -/
def qualifier (choices : List (String × Qualifier)) : Parser (Option Qualifier) :=
  Parser.optional (firstOf (choices.map fun (w, q) => do
    keyword w
    return q))

def attributeBody (inner : Level) : Parser (String × TypeExpr) := do
  keyword "attribute"
  let type ← attributedType inner
  let name ← identifier
  semicolon
  return (name, type)

def attributeMember (inner : Level) : Parser Member := do
  let attributes ← attributesOf inner
  let q ← qualifier [("stringifier", .stringifier), ("inherit", .inherit), ("static", .static)]
  let readonly ← present (keyword "readonly")
  let (name, type) ← attributeBody inner
  return { Member.ofAttribute name type with attributes, readonly, qualifier := q.getD .plain }

def constructorMember (inner : Level) : Parser Member := do
  docs
  let attributes ← attributesOf inner
  keyword "constructor"
  let arguments ← argumentList inner
  semicolon
  return { Member.ofConstructor with attributes, arguments }

def operationBody (inner : Level) : Parser Member := do
  let returns ← returnType inner
  let name ← Parser.optional identifier
  let arguments ← argumentList inner
  semicolon
  return { kind := .operation, name, type := some returns, arguments }

/-- Reads an operation of an interface.  Of two qualifiers the special one counts,
and the older word `legacycaller` is read and not kept. -/
def operationMember (inner : Level) : Parser Member := do
  docs
  let attributes ← attributesOf inner
  let first ← qualifier [("stringifier", .stringifier), ("static", .static)]
  let special ← qualifier [("getter", .getter), ("setter", .setter), ("deleter", .deleter),
    ("legacycaller", .plain)]
  let operation ← operationBody inner
  let q := match special with
    | some .plain | none => first.getD .plain
    | some q => q
  return { operation with attributes, qualifier := q }

def oneType (inner : Level) : Parser Unit := do
  mark "<"
  let _ ← attributedType inner
  mark ">"

def twoTypes (inner : Level) : Parser Unit := do
  mark "<"
  let _ ← attributedType inner
  mark ","
  let _ ← attributedType inner
  mark ">"

/-- Reads a declaration: extended attributes, which are dropped, and what `rest` reads. -/
def declaration (inner : Level) (name : String) (rest : Parser Unit) : Parser Member := do
  let _ ← attributesOf inner
  rest
  semicolon
  return .ofDeclaration name

def declarationMember (inner : Level) : Parser Member :=
  declaration inner "iterable" (do keyword "iterable"; oneType inner) <|>
  declaration inner "iterable" (do keyword "iterable"; twoTypes inner) <|>
  declaration inner "async iterable" (asynchronous (oneType inner)) <|>
  declaration inner "async iterable" (asynchronous (twoTypes inner)) <|>
  declaration inner "maplike" (do
    let _ ← present (keyword "readonly")
    keyword "maplike"
    twoTypes inner) <|>
  declaration inner "setlike" (do
    let _ ← present (keyword "readonly")
    keyword "setlike"
    oneType inner) <|>
  declaration inner "stringifier" (keyword "stringifier")
where
  /-- Reads an asynchronous iteration, which may have arguments. -/
  asynchronous (types : Parser Unit) : Parser Unit := do
    keyword "async"
    keyword "iterable"
    types
    let _ ← Parser.optional (argumentList inner)

def interfaceMember (inner : Level) : Parser Member :=
  constantMember inner <|> attributeMember inner <|> constructorMember inner <|>
  operationMember inner <|> declarationMember inner

/-- Reads an operation of a mixin.  That it is a stringifier is not kept. -/
def mixinOperation (inner : Level) : Parser Member := do
  let attributes ← attributesOf inner
  let _ ← present (keyword "stringifier")
  let operation ← operationBody inner
  return { operation with attributes }

/-- Reads an attribute of a mixin.  That it is a stringifier is not kept. -/
def mixinAttribute (inner : Level) : Parser Member := do
  let attributes ← attributesOf inner
  let _ ← present (keyword "stringifier")
  let readonly ← present (keyword "readonly")
  let (name, type) ← attributeBody inner
  return { Member.ofAttribute name type with attributes, readonly }

def mixinMember (inner : Level) : Parser Member :=
  constantMember inner <|> mixinOperation inner <|> mixinAttribute inner <|>
  declaration inner "stringifier" (keyword "stringifier")

def namespaceOperation (inner : Level) : Parser Member := do
  docs
  let attributes ← attributesOf inner
  let operation ← operationBody inner
  return { operation with attributes }

def namespaceAttribute (inner : Level) : Parser Member := do
  docs
  let attributes ← attributesOf inner
  keyword "readonly"
  let (name, type) ← attributeBody inner
  return { Member.ofAttribute name type with attributes, readonly := true }

def namespaceMember (inner : Level) : Parser Member :=
  namespaceOperation inner <|> namespaceAttribute inner

def dictionaryField (inner : Level) : Parser Field := do
  docs
  let _ ← attributesOf inner
  let required ← present (keyword "required")
  let type ← typeExpr inner
  let name ← identifier
  let _ ← Parser.optional defaultValue
  semicolon
  return { name, type, required }

end IdlDocs.Idl
