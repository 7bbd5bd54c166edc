import IdlDocs.Json.Basic

/-!
# Templates

A **template** is a text with pieces that are filled from a JSON value: values, calls of
helpers, parts that depend on a condition and parts that are repeated for the items of
a list.

* `Expr`: what a piece refers to.
* `Piece`, `Template`: templates.
-/

namespace IdlDocs.Templates

/-- What a piece refers to. -/
inductive Expr
  | literal (value : Json)
  /-- The value that keys lead to, `up` repetitions further out. -/
  | path (up : Nat) (keys : List String)
  /-- What is known about an item of a repetition, such as its index. -/
  | mark (name : String)

/-- A piece of a template. -/
inductive Piece
  | text (s : String)
  /-- A value. -/
  | value (e : Expr)
  /-- The call of a helper with arguments by position and by name. -/
  | call (helper : String) (args : List Expr) (named : List (String × Expr))
  /-- A part for a value that is true, and one for a value that is not. -/
  | choice (test : Expr) (yes no : List Piece)
  /-- A part for each item of a list, and one for a list without items. -/
  | repeat (list : Expr) (body empty : List Piece)

abbrev Template := List Piece

end IdlDocs.Templates
