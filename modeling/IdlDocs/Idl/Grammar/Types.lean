import IdlDocs.Idl.Definition
import IdlDocs.Idl.Token

/-!
# The grammar of types, attributes and arguments

Types hold types in angle brackets, unions hold attributes in front of their
members, and attributes hold lists of arguments, which hold types again.  Each of
these nested forms opens with a bracket, so the grammar is built by levels: the
forms of one level read what stands inside their bracket by the level below, and a
text needs no more levels than it has characters.

* `Level`: the three forms that nest, `levelAt`: the levels.
* `nonAnyType`, `typeExpr`, `unionType`, `returnType`: types.
* `attributeList`, `argument`: extended attributes and arguments.

A nullable mark is kept on integers, floating-point types, generic types, unions
and names; a keyword type such as `boolean` is read with its mark and drops it.
-/

namespace IdlDocs.Idl

open Text Text.Parser

/-- The parsers of the forms that nest, up to some depth. -/
structure Level where
  /-- Any type but `any` and a union. -/
  nonAny : Parser TypeExpr
  /-- A union in its parentheses, without a nullable mark. -/
  union : Parser TypeExpr
  /-- A list of extended attributes in its square brackets. -/
  attributes : Parser (List String)

def Level.none : Level := ⟨failure, failure, failure⟩

def nullableMark : Parser Bool := present (mark "?")

def markable (p : Parser TypeExpr) : Parser TypeExpr := do
  let t ← p
  return t.withMark (← nullableMark)

/-- Reads a keyword type.  Its nullable mark is dropped. -/
def keywordType (w : String) : Parser TypeExpr := do
  keyword w
  let _ ← nullableMark
  return .named w

/-- Reads a type that is named by the words of its size, with a modifier in front of them or
not. -/
def modified (modifier : String) (size : List String) : Parser TypeExpr := do
  let modified ← present (keyword modifier)
  size.forM keyword
  return .named (" ".intercalate (if modified then modifier :: size else size))

def integerType : Parser TypeExpr :=
  modified "unsigned" ["long", "long"] <|> modified "unsigned" ["long"] <|>
  modified "unsigned" ["short"]

def floatType : Parser TypeExpr :=
  modified "unrestricted" ["float"] <|> modified "unrestricted" ["double"]

def bracketed {α : Type} (w : String) (body : Parser α) : Parser α := do
  keyword w
  mark "<"
  let a ← body
  mark ">"
  return a

def keywordsBefore : List String :=
  ["boolean", "byte", "octet", "ByteString", "DOMString", "USVString"]

def keywordsAfter : List String :=
  ["object", "symbol", "Error", "ArrayBuffer", "DataView", "Int8Array", "Int16Array",
    "Int32Array", "Uint8Array", "Uint16Array", "Uint32Array", "Uint8ClampedArray",
    "Float32Array", "Float64Array", "ArrayBufferView", "BufferSource"]

def namedType : Parser TypeExpr := .named <$> identifier

/-- Reads a union with its nullable mark, where the level reads its body. -/
def unionType (inner : Level) : Parser TypeExpr := markable inner.union

def typeExpr (inner : Level) : Parser TypeExpr :=
  (do keyword "any"; return .named "any") <|> inner.nonAny <|> unionType inner

def returnType (inner : Level) : Parser TypeExpr :=
  (do keyword "undefined"; return .named "undefined") <|> typeExpr inner

def keyType (inner : Level) : Parser TypeExpr :=
  firstOf (["ByteString", "DOMString", "USVString"].map fun w => do
    keyword w
    return .named w) <|> inner.nonAny

def genericType (kind : GenericKind) (arg : Parser TypeExpr) : Parser TypeExpr := do
  return .generic kind [← bracketed kind.tag arg]

def recordType (inner : Level) : Parser TypeExpr :=
  bracketed GenericKind.record.tag do
    let key ← keyType inner
    mark ","
    let value ← typeExpr inner
    return .generic .record [key, value]

/-- Reads any type but `any` and a union, with the level below in angle brackets. -/
def nonAnyType (inner : Level) : Parser TypeExpr :=
  genericType .promise (returnType inner) <|>
  markable integerType <|>
  markable floatType <|>
  firstOf (keywordsBefore.map keywordType) <|>
  markable (genericType .sequence (typeExpr inner)) <|>
  firstOf (keywordsAfter.map keywordType) <|>
  markable (genericType .frozenArray (typeExpr inner)) <|>
  markable (recordType inner) <|>
  markable namedType

def attributesOf (inner : Level) : Parser (List String) := inner.attributes <|> pure []

def unionMember (inner : Level) : Parser TypeExpr :=
  (do let _ ← attributesOf inner; inner.nonAny) <|> unionType inner

def unionBody (inner : Level) : Parser TypeExpr := do
  mark "("
  let members ← list0 (unionMember inner) (keyword "or")
  mark ")"
  return .union members

/-- Reads a type with the extended attributes in front of it, which are dropped. -/
def attributedType (inner : Level) : Parser TypeExpr := do
  let _ ← attributesOf inner
  typeExpr inner

def defaultValue : Parser Unit := do
  mark "="
  literal

def singleArgument (inner : Level) : Parser Argument := do
  let attributes ← attributesOf inner
  let mayMiss ← present (keyword "optional")
  let type ← attributedType inner
  let name ← identifier
  if mayMiss then let _ ← Parser.optional defaultValue
  return { name, type, optional := mayMiss, attributes }

def variadicArgument (inner : Level) : Parser Argument := do
  let attributes ← attributesOf inner
  let type ← typeExpr inner
  mark "..."
  let name ← identifier
  return { name, type, variadic := true, attributes }

def argument (inner : Level) : Parser Argument := singleArgument inner <|> variadicArgument inner

def argumentList (inner : Level) : Parser (List Argument) := do
  mark "("
  let args ← list0 (argument inner) (mark ",")
  mark ")"
  return args

def extendedAttribute (inner : Level) : Parser String :=
  (do let name ← identifier; let _ ← argumentList inner; return name) <|>
  (do
    let name ← identifier
    mark "="
    let _ ← identifier
    let _ ← argumentList inner
    return name) <|>
  (do
    let name ← identifier
    mark "="
    mark "("
    let _ ← list0 identifier (mark ",")
    mark ")"
    return name) <|>
  (do
    let name ← identifier
    mark "="
    let _ ← identifier <|> quotedText
    return name) <|>
  identifier

/-- Reads extended attributes in square brackets, with the level below in them. -/
def attributeList (inner : Level) : Parser (List String) := do
  mark "["
  let names ← list0 (extendedAttribute inner) (mark ",")
  mark "]"
  return names

/-- The forms that nest at most `n` brackets. -/
def levelAt : Nat → Level
  | 0 => .none
  | n + 1 =>
    { nonAny := fun s => nonAnyType (levelAt n) s
      union := fun s => unionBody (levelAt n) s
      attributes := fun s => attributeList (levelAt n) s }

end IdlDocs.Idl
