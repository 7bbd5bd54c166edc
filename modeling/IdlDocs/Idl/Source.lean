import IdlDocs.Idl.Grammar.Definitions
import IdlDocs.Text.Excerpt
import IdlDocs.Text.Position

/-!
# Source texts

A **source text** is a list of definitions with blanks and comments around them.

* `readDefinitions`: the definitions that a text starts with, and what is left.
* `isBlankText`: what may be left, blanks and comments.
* `fillWildcards`: the wildcard of `[Exposed=*]` stands for a name, and one letter
  takes its place before a text is read.
* `parse`: **the definitions of a source text, or where the first one that cannot be
  read starts.**
-/

namespace IdlDocs.Idl

open Text

/-- The text with a letter in place of each wildcard that follows a sign of equality. -/
def fillWildcards : List Char → List Char
  | '=' :: '*' :: s => '=' :: 'A' :: fillWildcards s
  | c :: s => c :: fillWildcards s
  | [] => []

def readDefinitions (s : List Char) : List Definition × List Char :=
  (definitions (levelAt s.length) s).getD ([], s)

def afterLine (s : List Char) : List Char := (afterLine? s).getD []

theorem afterLine_length (s : List Char) : (afterLine s).length ≤ s.length := by
  unfold afterLine
  cases h : afterLine? s with
  | none => simp
  | some r => have := afterLine?_length h; simp only [Option.getD_some]; omega

/-- Only blanks and comments: line comments, of which the last one may end with the
text, and block comments that are closed. -/
def isBlankText : List Char → Bool
  | '/' :: '/' :: s => isBlankText (afterLine s)
  | '/' :: '*' :: s =>
    match _h : afterBlock? s with
    | some r => isBlankText r
    | none => false
  | c :: s => isBlank c && isBlankText s
  | [] => true
termination_by s => s.length
decreasing_by
  · have := afterLine_length s; simp only [List.length_cons]; omega
  · have := afterBlock?_length _h; simp only [List.length_cons]; omega
  · simp

/-- A definition that cannot be read, by how it starts and where. -/
structure SyntaxError where
  /-- The start of the text that cannot be read. -/
  excerpt : String
  position : Position
deriving DecidableEq

namespace SyntaxError

/-- The message of a syntax error. -/
def message (e : SyntaxError) : String :=
  s!"unexpected `{e.excerpt}` at {e.position.line}:{e.position.column}"

/-- The error that `rest`, the end of the text `s`, cannot be read. -/
def ofRest (s rest : List Char) : SyntaxError where
  excerpt := String.ofList (Text.excerpt rest)
  position := Position.after (s.take (s.length - rest.length))

end SyntaxError

/-- The definitions of a text in which the wildcards are filled. -/
def parseChars (s : List Char) : Except SyntaxError (List Definition) :=
  let (found, rest) := readDefinitions s
  if isBlankText rest then .ok found else .error (.ofRest s (trimStart rest))

/-- The definitions of a source text. -/
def parse (source : String) : Except SyntaxError (List Definition) :=
  parseChars (fillWildcards source.toList)

theorem parse_append (s t : List Char) :
    parse (String.ofList s ++ String.ofList t) = parseChars (fillWildcards (s ++ t)) := by
  unfold parse
  rw [String.toList_append, String.toList_ofList, String.toList_ofList]

end IdlDocs.Idl
