import IdlDocs.Text.Cut

/-!
# Parsers

A **parser** reads a value off the front of a text and leaves the rest, or refuses.
Choices are ordered and never undone: `p <|> q` tries `q` only where `p` refuses,
and a repetition takes as many items as there are.

* `satisfy`, `exactly`: one character, a given text.
* `many`, `optional`, `present`, `list0`: repetitions and optional parts.
* `pure_apply`, `bind_apply`, `orElse_apply`, `map_apply`: what a parser does to a text.
* `items_of_none`, `items_of_some`: **a repetition takes one item and repeats, or stops where its
  item refuses.**
-/

namespace IdlDocs.Text

/-- A parser takes a text to a value and the rest of the text, or refuses it. -/
abbrev Parser (α : Type) := StateT (List Char) Option α

namespace Parser

variable {α β : Type}

/-! ## What a parser does to a text -/

theorem pure_apply (a : α) (s : List Char) : (pure a : Parser α) s = some (a, s) := rfl

theorem bind_apply (p : Parser α) (f : α → Parser β) (s : List Char) :
    (p >>= f) s = (p s).bind fun x => f x.1 x.2 := rfl

theorem orElse_apply (p q : Parser α) (s : List Char) : (p <|> q) s = (p s).or (q s) := by
  change (p s <|> q s) = _
  cases p s <;> rfl

theorem map_apply (f : α → β) (p : Parser α) (s : List Char) :
    (f <$> p) s = (p s).map fun x => (f x.1, x.2) := by
  change (p s).bind _ = _
  cases p s <;> rfl

/-! ## Characters and repetitions -/

def satisfy (p : Char → Bool) : Parser Char := fun s =>
  match s with
  | c :: r => if p c then some (c, r) else none
  | [] => none

def exactly (t : List Char) : Parser Unit := fun s => (dropLead? t s).map ((), ·)

/-- Reads the longest run of characters of a class, which may be empty. -/
def run (p : Char → Bool) : Parser (List Char) := fun s => some (s.takeWhile p, s.dropWhile p)

/-- Reads a run of characters of a class that is not empty. -/
def run1 (p : Char → Bool) : Parser (List Char) := do
  let c ← satisfy p
  let cs ← run p
  return c :: cs

/-- Reads nothing, and refuses a text that starts with a character of a class. -/
def notBefore (p : Char → Bool) : Parser Unit := fun s =>
  match s with
  | c :: _ => if p c then none else some ((), s)
  | [] => some ((), s)

/-- The items that stand at the front of a text.  An item that takes nothing ends
the repetition. -/
def items (p : Parser α) (s : List Char) : List α × List Char :=
  match p s with
  | none => ([], s)
  | some (a, r) =>
    if r.length < s.length then
      let (as, t) := items p r
      (a :: as, t)
    else ([], s)
termination_by s.length

def many (p : Parser α) : Parser (List α) := fun s => some (items p s)

def optional (p : Parser α) : Parser (Option α) := (some <$> p) <|> pure none

/-- Reads an item if there is one, and tells whether there was. -/
def present (p : Parser α) : Parser Bool := ((fun _ => true) <$> p) <|> pure false

/-- Reads items with separators between them, at least one item. -/
def list1 (item : Parser α) (sep : Parser β) : Parser (List α) := do
  let a ← item
  let as ← many (sep *> item)
  return a :: as

/-- Reads items with separators between them.  A separator that no item follows is
left in the text. -/
def list0 (item : Parser α) (sep : Parser β) : Parser (List α) :=
  list1 item sep <|> pure []

def firstOf (ps : List (Parser α)) : Parser α := ps.foldr (· <|> ·) failure

/-- The value of a text that the parser reads as a whole. -/
def wholly (p : Parser α) (s : List Char) : Option α :=
  match p s with
  | some (a, []) => some a
  | _ => none

theorem items_of_none {p : Parser α} {s : List Char} (h : p s = none) : items p s = ([], s) := by
  rw [items, h]

theorem items_of_some {p : Parser α} {s r : List Char} {a : α} (h : p s = some (a, r))
    (hr : r.length < s.length) : items p s = (a :: (items p r).1, (items p r).2) := by
  rw [items, h]
  simp [hr]

theorem items_of_same {p : Parser α} {s : List Char} {a : α} (h : p s = some (a, s)) :
    items p s = ([], s) := by
  rw [items, h]
  simp

end Parser

end IdlDocs.Text
