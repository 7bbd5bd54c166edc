/-!
# JSON values

Documents as they are written: the fields of an object in their order, repeated
keys included, and numbers by their literals.  A string with half of a surrogate
pair, or an object with such a key, holds no Unicode text; it may stand where it is
not looked at.

* `Json`: the values.
* `Json.ofFields`: an object without the fields that are absent.
* `Json.string?`, `Json.bool?`, `Json.array?`: what a value is.
* `Json.word?`: a word of a fixed set.
-/

namespace IdlDocs

/-- A JSON value. -/
inductive Json
  | null
  | bool (b : Bool)
  /-- A number, by its literal. -/
  | number (literal : String)
  | string (s : String)
  /-- A string, or an object with a key, that holds no Unicode text. -/
  | illFormed
  | array (items : List Json)
  /-- An object, with the fields in the order in which they are written. -/
  | object (fields : List (String × Json))

namespace Json

def nat (n : Nat) : Json := .number (toString n)

def strings (l : List String) : Json := .array (l.map .string)

def stringOrNull : Option String → Json
  | some s => .string s
  | none => .null

def ofFields (fields : List (String × Option Json)) : Json :=
  .object (fields.filterMap fun (key, value) => value.map (key, ·))

def arrayUnlessEmpty (items : List Json) : Option Json :=
  if items.isEmpty then none else some (.array items)

def string? : Json → Option String
  | string s => some s
  | _ => none

def bool? : Json → Option Bool
  | bool b => some b
  | _ => none

def array? : Json → Option (List Json)
  | array items => some items
  | _ => none

def strings? (j : Json) : Option (List String) := j.array?.bind (·.mapM string?)

def nullable? {α : Type} (decode : Json → Option α) : Json → Option (Option α)
  | null => some none
  | j => (decode j).map some

/-- The items of an array, decoded. -/
def list? {α : Type} (decode : Json → Option α) (j : Json) : Option (List α) :=
  j.array?.bind (·.mapM decode)

/-- A word of a fixed set: a string, or an object with the word as its only key, for
null. -/
def word? : Json → Option String
  | string w => some w
  | object [(w, null)] => some w
  | _ => none

/-- The value that a word of a fixed set stands for. -/
def choice? {α : Type} (choices : List (String × α)) (j : Json) : Option α :=
  j.word?.bind (choices.lookup ·)

end Json

end IdlDocs
