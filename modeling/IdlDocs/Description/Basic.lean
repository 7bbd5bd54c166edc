/-!
# Descriptions of types

What documentation says about a type: a label for a basic type, a reference to an
interface, a list of keys for a dictionary, and so on.

* `Description`: the descriptions.
* `basicLabel?`: the labels of the basic types.
-/

namespace IdlDocs

/-- A description of a type. -/
inductive Description
  /-- A label. -/
  | text (label : String)
  /-- A reference to the page of a name. -/
  | reference (name : String)
  /-- A choice. -/
  | oneOf (members : List Description)
  | arrayOf (inner : Description)
  /-- A map. -/
  | keyValue (key value : Description)
  | promiseOf (inner : Description)
  /-- A generic type of another kind, by its tag. -/
  | genericOf (tag : String) (inner : Description)
  /-- A dictionary: for each key its name, whether it may be missing, and its type. -/
  | dictionary (keys : List (String × Bool × Description))
  /-- The values of an enumeration. -/
  | enumValues (values : List String)

/-- The label of a basic type.  Integers of every size are called by one word, and so are
strings. -/
def basicLabel? (name : String) : Option String :=
  match name with
  | "boolean" => some "boolean"
  | "object" => some "object"
  | "undefined" => some "undefined"
  | "any" => some "any"
  | "byte" | "octet" | "short" | "unsigned short" | "long" | "unsigned long" | "long long"
  | "unsigned long long" => some "integer"
  | "float" | "unrestricted float" => some "float"
  | "double" | "unrestricted double" => some "double-precision floating-point value"
  | "bigint" | "DOMString" | "ByteString" | "USVString" => some "string"
  | _ => none

end IdlDocs
