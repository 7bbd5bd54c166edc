import IdlDocs.Description.Layout
import IdlDocs.Json.Writer
import IdlDocs.Templates.Basic

/-!
# Rendering

A template is rendered in **frames**: the value that it is filled from, and, for each
repetition around a piece, the item it is repeated for.  Nothing in a value is escaped
or read as a template.

* `Frame`, `Expr.eval`: frames, and the value of an expression in them.
* `isTrue`, `valueText`, `argumentText?`: values as conditions, as texts, as arguments.
* `helper?`: the helpers.
* `render?`: **the text of a template.**
-/

namespace IdlDocs.Templates

/-- The value that a template or a repetition is filled from. -/
structure Frame where
  value : Json
  /-- What is known about the item of a repetition. -/
  marks : List (String × Json) := []

/-- The value that a key leads to. -/
def member (j : Json) (key : String) : Json :=
  match j with
  | .object fields => (fields.lookup key).getD .null
  | .array items => (key.toNat?.bind (items[·]?)).getD .null
  | _ => .null

/-- The value of an expression.  What is not there is null. -/
def Expr.eval (frames : List Frame) : Expr → Json
  | literal value => value
  | path up keys =>
    match frames[up]? with
    | some frame => keys.foldl member frame.value
    | none => .null
  | mark name => (frames.head?.bind (·.marks.lookup name)).getD .null

/-- Tells whether a value counts as true: no false, no null, no zero, nothing empty. -/
def isTrue : Json → Bool
  | .null | .illFormed => false
  | .bool b => b
  | .number literal => literal != "0"
  | .string s => s != ""
  | .array items => !items.isEmpty
  | .object fields => !fields.isEmpty

mutual

def valueText : Json → List Char
  | .null | .illFormed => []
  | .bool b => if b then "true".toList else "false".toList
  | .number literal => literal.toList
  | .string s => s.toList
  | .array items => '[' :: ([',', ' '].intercalate (itemTexts items) ++ [']'])
  | .object _ => "[object]".toList

def itemTexts : List Json → List (List Char)
  | [] => []
  | j :: js => valueText j :: itemTexts js

end

def argumentText? : Json → Option String
  | .null => none
  | .string s => some s
  | j => some j.compact

/-- The call of a macro with arguments.  Null arguments are dropped; the name may not be
null. -/
def macroHelper (args : List Json) : Option String := do
  let name ← argumentText? (← args.head?)
  return macroCall name (args.tail.filterMap argumentText?)

/-- The reference to a page, named by the arguments with points between them and a suffix
behind. -/
def referenceHelper (args : List Json) (suffix : Json) : Option String :=
  let target := ".".intercalate (args.filterMap argumentText?)
  if target == "" then none
  else some (pageReference (target ++ (argumentText? suffix).getD ""))

def helper? (name : String) (args : List Json) (named : List (String × Json)) : Option String :=
  if name == "macro" then macroHelper args
  else if name == "xref" then referenceHelper args ((named.lookup "suffix").getD .null)
  else none

/-- What is known about the item at a place among `n` items. -/
def placeMarks (n i : Nat) : List (String × Json) :=
  [("first", .bool (i == 0)), ("last", .bool (i + 1 == n))]

/-- The frames of the items that a value is repeated for: the items of an array, or the
values of the fields of an object. -/
def itemFrames : Json → List Frame
  | .array items => items.zipIdx.map fun (j, i) =>
    ⟨j, ("index", .nat i) :: placeMarks items.length i⟩
  | .object fields => fields.zipIdx.map fun ((key, j), i) =>
    ⟨j, ("key", .string key) :: placeMarks fields.length i⟩
  | _ => []

mutual

/-- The text of a piece. -/
def Piece.render? (frames : List Frame) : Piece → Option (List Char)
  | .text s => some s.toList
  | .value e => some (valueText (e.eval frames))
  | .call name args named =>
    (helper? name (args.map (·.eval frames)) (named.map fun (k, e) => (k, e.eval frames))).map
      String.toList
  | .choice test yes no =>
    if isTrue (test.eval frames) then renderAll? frames yes else renderAll? frames no
  | .repeat list body empty =>
    match itemFrames (list.eval frames) with
    | [] => renderAll? frames empty
    | items => (items.mapM fun item => renderAll? (item :: frames) body).map List.flatten

def renderAll? (frames : List Frame) : List Piece → Option (List Char)
  | [] => some []
  | p :: ps => do
    let text ← p.render? frames
    return text ++ (← renderAll? frames ps)

end

/-- The text of a template that is filled from a value. -/
def render? (t : Template) (data : Json) : Option String :=
  (renderAll? [⟨data, []⟩] t).map String.ofList

end IdlDocs.Templates
