/-!
# Type expressions

The types that interface definitions are written with: names, unions, generic
types and nullable types.  A name stands for a basic type (`unsigned long`), a
keyword type (`DOMString`) or another definition; which of them it is, is decided
where the type is described.

* `TypeExpr.chars`, `TypeExpr.text`: **the written form of a type**, with `or`
  between the members of a union and `, ` between the arguments of a generic.
* `TypeExpr.name?`: the name of a type, looking through nullable marks.
-/

namespace IdlDocs.Idl

/-- The constructors of generic types. -/
inductive GenericKind
  /-- A list of values, `sequence<T>`. -/
  | sequence
  /-- A frozen list, `FrozenArray<T>`. -/
  | frozenArray
  /-- An observable list, `ObservableArray<T>`. -/
  | observableArray
  /-- The older form of a list, `array<T>`. -/
  | array
  /-- A map, `record<K, V>`. -/
  | record
  /-- A promised value, `Promise<T>`. -/
  | promise
  /-- Any other constructor, by its tag. -/
  | other (tag : String)
deriving DecidableEq

namespace GenericKind

def tag : GenericKind → String
  | sequence => "sequence"
  | frozenArray => "FrozenArray"
  | observableArray => "ObservableArray"
  | array => "array"
  | record => "record"
  | promise => "Promise"
  | other tag => tag

/-- The generic types whose values are ordered lists. -/
def isList : GenericKind → Bool
  | sequence | frozenArray | observableArray | array => true
  | record | promise | other _ => false

end GenericKind

/-- A type as it is written in a definition. -/
inductive TypeExpr
  /-- A basic type, a keyword type or a definition, by name. -/
  | named (name : String)
  /-- A union, `(A or B)`. -/
  | union (members : List TypeExpr)
  /-- A generic type, `sequence<T>`. -/
  | generic (kind : GenericKind) (args : List TypeExpr)
  /-- A type that admits null, `T?`. -/
  | nullable (inner : TypeExpr)

namespace TypeExpr

mutual

def chars : TypeExpr → List Char
  | named name => name.toList
  | union members => '(' :: " or ".toList.intercalate (charsOf members) ++ [')']
  | generic kind args =>
    kind.tag.toList ++ '<' :: ", ".toList.intercalate (charsOf args) ++ ['>']
  | nullable inner => inner.chars ++ ['?']

def charsOf : List TypeExpr → List (List Char)
  | [] => []
  | t :: ts => t.chars :: charsOf ts

end

/-- The written form of a type, as a string. -/
def text (t : TypeExpr) : String := String.ofList t.chars

/-- The name of a named type, looking through nullable marks. -/
def name? : TypeExpr → Option String
  | named name => some name
  | nullable inner => inner.name?
  | union _ | generic _ _ => none

def isUndefined : TypeExpr → Bool
  | named name => name == "undefined"
  | union _ | generic _ _ | nullable _ => false

def withMark (t : TypeExpr) : Bool → TypeExpr
  | true => nullable t
  | false => t

end TypeExpr

end IdlDocs.Idl
