import IdlDocs.Text.Blank

/-!
# Excerpts

An **excerpt** shows in one line what a text starts with: its first line without
the blanks at the ends, and three dots in place of what exceeds forty characters.
-/

namespace IdlDocs.Text

def excerptLength : Nat := 40

def firstLine (s : List Char) : List Char := s.takeWhile (· ≠ '\n')

/-- The first line of a text, trimmed and cut to `excerptLength` characters. -/
def excerpt (s : List Char) : List Char :=
  let line := trim (firstLine s)
  if excerptLength < line.length then line.take excerptLength ++ ['.', '.', '.'] else line

end IdlDocs.Text
