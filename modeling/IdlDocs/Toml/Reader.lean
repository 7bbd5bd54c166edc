import IdlDocs.Text.Parser
import IdlDocs.Toml.Table

/-!
# Reading settings

The configuration format: lines with a key and a value, headers of tables in square
brackets, and comments.  Strings have four forms, numbers several; what a number is
is not kept.

* `value`: values, with arrays and inline tables at most `maxDepth` deep.
* `document`: the lines, which change the table one by one.
* `parse?`: **the table of a text.**
-/

namespace IdlDocs.Toml

open Text Text.Parser

/-! ## Blanks, comments and line breaks -/

/-- The blanks within a line. -/
def isSpace (c : Char) : Bool := c == ' ' || c == '\t'

/-- The characters of comments and of literal strings: no control characters but tabs. -/
def isPlain (c : Char) : Bool := c == '\t' || (0x20 ≤ c.toNat && c.toNat != 0x7f)

def spaces : Parser Unit := (fun _ => ()) <$> run isSpace

def lineBreak : Parser Unit := exactly ['\n'] <|> exactly ['\r', '\n']

def comment : Parser Unit := do
  exactly ['#']
  let _ ← run isPlain

/-- Reads blanks, comments and line breaks. -/
def gap : Parser Unit := do
  let _ ← many ((fun _ => ()) <$> run1 isSpace <|> lineBreak <|> comment)

/-! ## Strings and keys -/

def hexDigit? (c : Char) : Option Nat :=
  if c.isDigit then some (c.toNat - 48)
  else if 'a' ≤ c && c ≤ 'f' then some (c.toNat - 87)
  else if 'A' ≤ c && c ≤ 'F' then some (c.toNat - 55)
  else none

/-- Reads the character with the number of `n` hexadecimal digits. -/
def numbered (n : Nat) : Parser Char := do
  let mut code := 0
  for _ in List.range n do
    code := code * 16 + (← hexDigit? (← satisfy fun _ => true))
  if Nat.isValidChar code then return Char.ofNat code else failure

def escapes : List (Char × Char) :=
  [('b', '\x08'), ('t', '\t'), ('n', '\n'), ('f', '\x0c'), ('r', '\r'), ('"', '"'), ('\\', '\\')]

def escaped : Parser Char := do
  exactly ['\\']
  let c ← satisfy fun _ => true
  if c = 'u' then numbered 4
  else if c = 'U' then numbered 8
  else escapes.lookup c

def basicChar : Parser Char := escaped <|> satisfy fun c => isPlain c && c != '"' && c != '\\'

def basicString : Parser String := do
  exactly ['"']
  let cs ← many basicChar
  exactly ['"']
  return String.ofList cs

/-- Reads a string between single quotes, in which nothing is escaped. -/
def literalString : Parser String := do
  exactly ['\'']
  let cs ← run fun c => isPlain c && c != '\''
  exactly ['\'']
  return String.ofList cs

def lineBreakChar : Parser Char := (fun _ => '\n') <$> lineBreak

/-- Reads what stands in a string of several lines, up to three quotes in a row.  One or
two more quotes in front of these three belong to the string. -/
def severalLines (quote : Char) (part : Parser (List Char)) : Parser String := do
  let fence := [quote, quote, quote]
  exactly fence
  let _ ← Parser.optional lineBreak
  let inner : Parser (List Char) := part <|> do
    exactly [quote]
    notFence
    return [quote]
  let parts ← many inner
  exactly fence
  let more ← atMostTwo
  return String.ofList (parts.flatten ++ more)
where
  /-- Refuses the last two of three quotes, of which the first is read. -/
  notFence : Parser Unit := fun s =>
    match s with
    | a :: b :: _ => if a = quote ∧ b = quote then none else some ((), s)
    | _ => some ((), s)
  /-- Reads at most two quotes. -/
  atMostTwo : Parser (List Char) :=
    (do exactly [quote, quote]; return [quote, quote]) <|>
    (do exactly [quote]; return [quote]) <|> pure []

/-- Reads a backslash at the end of a line, with the blanks and line breaks after it. -/
def joinedLines : Parser (List Char) := do
  exactly ['\\']
  spaces
  lineBreak
  let _ ← many ((fun _ => ()) <$> run1 isSpace <|> lineBreak)
  return []

/-- Reads a string of several lines between double quotes. -/
def basicLines : Parser String :=
  severalLines '"' (joinedLines <|> (fun c => [c]) <$> (basicChar <|> lineBreakChar))

/-- Reads a string of several lines between single quotes. -/
def literalLines : Parser String :=
  severalLines '\'' ((fun c => [c]) <$>
    ((satisfy fun c => isPlain c && c != '\'') <|> lineBreakChar))

/-- Reads a string. -/
def text : Parser String := basicLines <|> literalLines <|> basicString <|> literalString

/-- The characters of keys without quotes. -/
def isBare (c : Char) : Bool := c.isAlphanum || c == '_' || c == '-'

def keyPart : Parser String :=
  (String.ofList <$> run1 isBare) <|> basicString <|> literalString

/-- Reads a key: its parts but the last, and the last. -/
def key : Parser (List String × String) := do
  let parts ← list1 (do spaces; let k ← keyPart; spaces; return k) (exactly ['.'])
  match parts.getLast? with
  | some last => return (parts.dropLast, last)
  | none => failure

/-! ## Numbers, truth values and dates -/

def digits (p : Char → Bool) : Parser (List Char) := do
  let groups ← list1 (run1 p) (exactly ['_'])
  return groups.flatten

def numberOf (base : Nat) (cs : List Char) : Nat :=
  cs.foldl (fun n c => n * base + (hexDigit? c).getD 0) 0

def maxInteger : Nat := 9223372036854775807

/-- Reads an integer with a lead that tells its base. -/
def based (lead : String) (base : Nat) (p : Char → Bool) : Parser Unit := do
  exactly lead.toList
  let cs ← digits p
  unless numberOf base cs ≤ maxInteger do failure

/-- Reads the digits of a decimal number in front of its point. -/
def wholeDigits : Parser (List Char) :=
  (do exactly ['0']; notBefore Char.isDigit; return ['0']) <|>
  (do notBefore (· == '0'); digits Char.isDigit)

/-- Reads a sign; tells whether it is a minus. -/
def sign : Parser Bool :=
  (· == some '-') <$> Parser.optional (satisfy fun c => c == '+' || c == '-')

def decimalInteger : Parser Unit := do
  let negative ← sign
  let cs ← wholeDigits
  unless numberOf 10 cs ≤ maxInteger + (if negative then 1 else 0) do failure

def exponent : Parser Unit := do
  let _ ← satisfy fun c => c == 'e' || c == 'E'
  let _ ← sign
  let _ ← digits Char.isDigit

def fraction : Parser Unit := do
  exactly ['.']
  let _ ← digits Char.isDigit

def float : Parser Unit :=
  (do
    let _ ← sign
    let _ ← wholeDigits
    (do fraction; let _ ← Parser.optional exponent) <|> exponent) <|>
  (do let _ ← sign; exactly "inf".toList <|> exactly "nan".toList)

/-- Reads a number of `n` digits that lies between two bounds. -/
def fixed (n first last : Nat) : Parser Nat := do
  let mut cs := []
  for _ in List.range n do
    cs := cs ++ [← satisfy Char.isDigit]
  let k := numberOf 10 cs
  if first ≤ k && k ≤ last then return k else failure

def daysOf (year month : Nat) : Nat :=
  if month == 2 then
    if year % 4 == 0 && (year % 100 != 0 || year % 400 == 0) then 29 else 28
  else if [4, 6, 9, 11].contains month then 30 else 31

def date : Parser Unit := do
  let year ← fixed 4 0 9999
  exactly ['-']
  let month ← fixed 2 1 12
  exactly ['-']
  let _ ← fixed 2 1 (daysOf year month)

def time : Parser Unit := do
  let _ ← fixed 2 0 23
  exactly [':']
  let _ ← fixed 2 0 59
  exactly [':']
  let _ ← fixed 2 0 60
  let _ ← Parser.optional (do exactly ['.']; let _ ← run1 Char.isDigit)

/-- Reads the offset of a time zone. -/
def offset : Parser Unit :=
  (fun _ => ()) <$> satisfy (fun c => c == 'Z' || c == 'z') <|> do
    let _ ← satisfy fun c => c == '+' || c == '-'
    let _ ← fixed 2 0 23
    exactly [':']
    let _ ← fixed 2 0 59

def dateTime : Parser Unit :=
  (do
    date
    let _ ← Parser.optional (do
      let _ ← satisfy fun c => c == 'T' || c == 't' || c == ' '
      time
      let _ ← Parser.optional offset)) <|>
  time

/-- Reads a number, a truth value or a date. -/
def scalar : Parser Unit :=
  exactly "true".toList <|> exactly "false".toList <|> dateTime <|> float <|>
  based "0x" 16 (fun c => (hexDigit? c).isSome) <|> based "0o" 8 (fun c => '0' ≤ c && c ≤ '7') <|>
  based "0b" 2 (fun c => c == '0' || c == '1') <|> decimalInteger

/-! ## Values -/

/-- How deep arrays and inline tables may stand in one another. -/
def maxDepth : Nat := 79

def arrayOf (inner : Parser Item) : Parser Item := do
  exactly ['[']
  let items ← list0 (do gap; let i ← inner; gap; return i) (exactly [','])
  let _ ← Parser.optional (exactly [','])
  gap
  exactly [']']
  return .array items

def entry (inner : Parser Item) : Parser (List String × String × Item) := do
  let (path, last) ← key
  exactly ['=']
  spaces
  return (path, last, ← inner)

def inlineTableOf (inner : Parser Item) : Parser Item := do
  exactly ['\x7b']
  spaces
  let entries ← list0 (do let e ← entry inner; spaces; return e) (exactly [','])
  exactly ['\x7d']
  return .inlineTable (← entries.foldlM (fun t (path, last, item) => insertAt path last item t) [])

def simpleValue : Parser Item := Item.text <$> text <|> (fun _ => Item.scalar) <$> scalar

/-- Reads a value with at most `n` arrays and inline tables around one another. -/
def value : Nat → Parser Item
  | 0 => simpleValue
  | n + 1 => fun s =>
    (simpleValue <|> arrayOf (value n) <|> inlineTableOf (value n)) s

/-! ## Lines -/

/-- What a line does. -/
inductive Line
  | nothing
  | entry (path : List String) (key : String) (item : Item)
  | tableHeader (path : List String) (key : String)
  | arrayHeader (path : List String) (key : String)

def statement : Parser Line :=
  (do
    exactly ['[', '[']
    let (path, last) ← key
    exactly [']', ']']
    return .arrayHeader path last) <|>
  (do
    exactly ['[']
    let (path, last) ← key
    exactly [']']
    return .tableHeader path last) <|>
  (do let (path, last, item) ← entry (value maxDepth); return .entry path last item) <|>
  pure .nothing

/-- Reads a line without its break. -/
def line : Parser Line := do
  spaces
  let l ← statement
  spaces
  let _ ← Parser.optional comment
  return l

/-- The table that is built up, and the path of the table that is open. -/
structure Builder where
  root : Entries := []
  current : List String := []

/-- What a line makes of the table. -/
def Builder.step (b : Builder) : Line → Option Builder
  | .nothing => some b
  | .entry path key item => do
    return { b with root := ← withinOpen b.current (insertAt path key item) b.root }
  | .tableHeader path key => do
    return { root := ← openTable path key b.root, current := path ++ [key] }
  | .arrayHeader path key => do
    return { root := ← openArray path key b.root, current := path ++ [key] }

/-- Reads the lines of a text. -/
def document : Parser (List Line) := do
  let lines ← many (do let l ← line; lineBreak; return l)
  let last ← line
  return lines ++ [last]

def byteOrderMark : Char := '\ufeff'

def parse? (s : String) : Option Entries := do
  let cs := match s.toList with
    | c :: cs => if c = byteOrderMark then cs else c :: cs
    | [] => []
  let lines ← wholly document cs
  return (← lines.foldlM Builder.step {}).root

end IdlDocs.Toml
