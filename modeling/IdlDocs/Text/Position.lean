/-!
# Positions in a text

A **position** is a line and a column, both counted from one.  The position of a
place is that of the text before it: one line more than it has line breaks, one
column more than it has characters since the last of them.
-/

namespace IdlDocs.Text

/-- A line and a column, counted from one. -/
structure Position where
  line : Nat
  column : Nat
deriving DecidableEq, Repr

namespace Position

/-- The first place of a text. -/
def start : Position := ⟨1, 1⟩

def next (p : Position) (c : Char) : Position :=
  if c = '\n' then ⟨p.line + 1, 1⟩ else ⟨p.line, p.column + 1⟩

/-- The position of the place that follows `before`. -/
def after (before : List Char) : Position := before.foldl next start

end Position

end IdlDocs.Text
