import IdlDocs.Text.Parser

/-!
# Tokens

What the interface definition language is written with, below its grammar: blanks
and comments, marks, keywords, identifiers, strings and numbers.  Every token
takes the blanks on both of its sides.

* `skipBlank`: what stands between two tokens.  A line comment needs its line
  break, and a line that starts with three slashes is a documentation comment,
  which is a token of its own.
* `mark`, `keyword`, `identifier`, `quotedText`: **the tokens.**
* `literal`, `constant`: values, which are read and not kept.
-/

namespace IdlDocs.Idl

open Text Text.Parser

/-- The four characters that may stand anywhere between two tokens. -/
def isSpace (c : Char) : Bool := c == ' ' || c == '\t' || c == '\r' || c == '\n'

def isAlnum (c : Char) : Bool := c.isAlphanum

def isWordChar (c : Char) : Bool := isAlnum c || c == '_' || c == '-'

def afterLine? : List Char → Option (List Char)
  | [] => none
  | c :: s => if c = '\n' then some s else afterLine? s

def afterBlock? : List Char → Option (List Char)
  | '*' :: '/' :: s => some s
  | _ :: s => afterBlock? s
  | [] => none

theorem afterLine?_length {s r : List Char} (h : afterLine? s = some r) : r.length < s.length := by
  induction s with
  | nil => simp [afterLine?] at h
  | cons c s ih =>
    simp only [afterLine?] at h
    split at h
    · cases h; simp
    · have := ih h; simp only [List.length_cons]; omega

theorem afterBlock?_length {s r : List Char} (h : afterBlock? s = some r) :
    r.length < s.length := by
  fun_induction afterBlock? s with
  | case1 s => cases h; simp only [List.length_cons]; omega
  | case2 c s _ ih => have := ih h; simp only [List.length_cons]; omega
  | case3 => simp at h

/-- The text after the comment that it starts with: a block comment that is closed,
or a line comment that ends with a line break and is no documentation comment. -/
def afterComment? : List Char → Option (List Char)
  | '/' :: '/' :: '/' :: _ => none
  | '/' :: '/' :: s => afterLine? s
  | '/' :: '*' :: s => afterBlock? s
  | _ => none

theorem afterComment?_length {s r : List Char} (h : afterComment? s = some r) :
    r.length < s.length := by
  fun_cases afterComment? s with
  | case1 => simp [afterComment?] at h
  | case2 s hs =>
    have : afterLine? s = some r := by
      rw [afterComment?] at h
      · exact h
      · exact hs
    have := afterLine?_length this
    simp only [List.length_cons]; omega
  | case3 s =>
    have := afterBlock?_length (show afterBlock? s = some r from h)
    simp only [List.length_cons]; omega
  | case4 s h1 h2 h3 =>
    rw [afterComment?] at h
    · cases h
    all_goals assumption

/-- The text without the spaces and comments that it starts with. -/
def skipBlank (s : List Char) : List Char :=
  match h : afterComment? s with
  | some r =>
    have := afterComment?_length h
    skipBlank r
  | none =>
    match s with
    | c :: r => if isSpace c then skipBlank r else c :: r
    | [] => []
termination_by s.length

/-- Reads the spaces and comments at the front of the text. -/
def blank : Parser Unit := fun s => some ((), skipBlank s)

/-- Reads a token: what `p` reads, and the blanks around it. -/
def token {α : Type} (p : Parser α) : Parser α := do
  blank
  let a ← p
  blank
  return a

/-- Reads a punctuation mark. -/
def mark (m : String) : Parser Unit := token (exactly m.toList)

def keyword (w : String) : Parser Unit := token (exactly w.toList *> notBefore isWordChar)

/-- Reads a word that starts with a letter or a digit. -/
def word : Parser (List Char) := do
  let c ← satisfy isAlnum
  let cs ← run isWordChar
  return c :: cs

/-- Reads an identifier.  One low line in front of it is no part of the name. -/
def identifier : Parser String := token do
  let _ ← present (exactly ['_'])
  return String.ofList (← word)

def quotedText : Parser String := token do
  exactly ['"']
  let cs ← run (· ≠ '"')
  exactly ['"']
  return String.ofList cs

def docLine : Parser Unit := do
  let _ ← run isSpace
  exactly ['/', '/', '/']
  let _ ← run (· ≠ '\n')
  exactly ['\n']

def docs : Parser Unit := (fun _ => ()) <$> many docLine

def isDigit (c : Char) : Bool := c.isDigit

def exponent : Parser Unit := do
  let _ ← satisfy (fun c => c == 'e' || c == 'E')
  let _ ← Parser.optional (satisfy (fun c => c == '+' || c == '-'))
  let _ ← run1 isDigit

/-- Reads the digits of a number with a point: digits on at least one side of it. -/
def pointed : Parser Unit :=
  (do let _ ← run1 isDigit; exactly ['.']; let _ ← run isDigit) <|>
  (do let _ ← run isDigit; exactly ['.']; let _ ← run1 isDigit)

def decimal : Parser Unit := token do
  let _ ← present (exactly ['-'])
  (do pointed; let _ ← Parser.optional exponent) <|> (do let _ ← run1 isDigit; exponent)

def float : Parser Unit :=
  decimal <|> keyword "-Infinity" <|> keyword "Infinity" <|> keyword "NaN"

/-- Reads an integer: decimal, hexadecimal or octal. -/
def integer : Parser Unit := token do
  let _ ← present (exactly ['-'])
  (do let _ ← satisfy (fun c => isDigit c && c != '0'); let _ ← run isDigit) <|>
  (do
    exactly ['0']
    let _ ← satisfy (fun c => c == 'x' || c == 'X')
    let _ ← run (fun c => isDigit c || ('a' ≤ c && c ≤ 'f') || ('A' ≤ c && c ≤ 'F'))) <|>
  (do exactly ['0']; let _ ← run (fun c => '0' ≤ c && c ≤ '7'))

def truth : Parser Unit := keyword "true" <|> keyword "false"

def constant : Parser Unit := truth <|> float <|> integer <|> keyword "null"

def literal : Parser Unit :=
  truth <|> (do mark "["; mark "]") <|> (do mark "\x7b"; mark "\x7d") <|> float <|> integer <|>
  keyword "null" <|> (fun _ => ()) <$> quotedText

end IdlDocs.Idl
