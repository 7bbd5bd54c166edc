import IdlDocs.Description.Basic

/-!
# The layout of descriptions

A description is written as a phrase.  The keys of a dictionary and the values of an
enumeration follow in lines of their own, as items of a list; each step into a
description indents them by two spaces more.

* `macroCall`: the call of a macro.
* `Description.chars`, `Description.render`: the text of a description at a depth.
-/

namespace IdlDocs

def macroCall (name : String) (args : List String) : String :=
  let inside := if args.isEmpty then ""
    else "(" ++ ", ".intercalate (args.map fun a => "\"" ++ a ++ "\"") ++ ")"
  "\x7b\x7b" ++ name ++ inside ++ "\x7d\x7d"

def pageReference (target : String) : String := macroCall "domxref" [target]

def listItemDepth : Nat := 2

namespace Description

def indent (depth : Nat) : List Char := List.replicate (2 * depth) ' '

/-- The start of a list item: a line break, the indentation, and the text that is
shown as code. -/
def item (depth : Nat) (code : List Char) : List Char :=
  '\n' :: indent depth ++ ['-', ' ', '`'] ++ code ++ ['`']

def valueItem (depth : Nat) (value : String) : List Char :=
  item depth ('"' :: value.toList ++ ['"'])

mutual

/-- The text of a description, with its list items at `depth`. -/
def chars (depth : Nat) : Description → List Char
  | text label => label.toList
  | reference name => (pageReference name).toList
  | oneOf members => "one of ".toList ++ [',', ' '].intercalate (listChars (depth + 1) members)
  | arrayOf inner => "an array of ".toList ++ inner.chars (depth + 1)
  | keyValue key value =>
    "a key-value pair ".toList ++ key.chars depth ++ ',' :: value.chars (depth + 1)
  | promiseOf inner => "a promise of ".toList ++ inner.chars (depth + 1)
  | genericOf tag inner => tag.toList ++ " of type ".toList ++ inner.chars (depth + 1)
  | dictionary keys => "an object with the following keys:".toList ++ keyChars depth keys
  | enumValues values =>
    "one of the following string values:".toList ++ values.flatMap (valueItem depth)

def listChars (depth : Nat) : List Description → List (List Char)
  | [] => []
  | d :: ds => d.chars depth :: listChars depth ds

def keyChars (depth : Nat) : List (String × Bool × Description) → List Char
  | [] => []
  | (name, mayMiss, d) :: keys =>
    item depth name.toList ++ (if mayMiss then " (optional)".toList else []) ++ [':', ' '] ++
      d.chars (depth + 1) ++ keyChars depth keys

end

/-- The text of a description, as a string. -/
def render (depth : Nat) (d : Description) : String := String.ofList (d.chars depth)

end Description

end IdlDocs
