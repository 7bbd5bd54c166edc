import IdlDocs.Json.Basic
import IdlDocs.Text.Parser

/-!
# Reading JSON

Strict JSON: no comments, no commas at an end, no control characters in strings, no
zeros in front of a number, and nothing but blanks around the value.

Arrays and objects nest, so the reader is built by levels, as many as the text has
characters.

* `Json.value`: a value of bounded depth.
* `Json.parse?`: **the value of a text.**
-/

namespace IdlDocs.Json

open Text Text.Parser

def isBlank (c : Char) : Bool := c == ' ' || c == '\t' || c == '\n' || c == '\r'

def blanks : Parser Unit := (fun _ => ()) <$> run isBlank

def mark (c : Char) : Parser Unit := do
  exactly [c]
  blanks

def hexDigit? (c : Char) : Option Nat :=
  if c.isDigit then some (c.toNat - 48)
  else if 'a' ≤ c && c ≤ 'f' then some (c.toNat - 87)
  else if 'A' ≤ c && c ≤ 'F' then some (c.toNat - 55)
  else none

def hexDigit : Parser Nat := do
  let c ← satisfy fun _ => true
  hexDigit? c

def hexNumber (before : Nat) : Nat → Parser Nat
  | 0 => pure before
  | n + 1 => do
    let d ← hexDigit
    hexNumber (before * 16 + d) n

def isHighHalf (n : Nat) : Bool := 0xd800 ≤ n && n ≤ 0xdbff

def isLowHalf (n : Nat) : Bool := 0xdc00 ≤ n && n ≤ 0xdfff

def lowHalf : Parser Nat := do
  exactly ['\\', 'u']
  let n ← hexNumber 0 4
  if isLowHalf n then return n else failure

/-- Reads the number of a character after `\u`; half of a surrogate pair gives none. -/
def numbered : Parser (Option Char) := do
  let n ← hexNumber 0 4
  if isHighHalf n then
    (do
      let low ← lowHalf
      return some (Char.ofNat (0x10000 + (n - 0xd800) * 0x400 + (low - 0xdc00)))) <|>
    pure none
  else if isLowHalf n then return none
  else return some (Char.ofNat n)

def escapes : List (Char × Char) :=
  [('"', '"'), ('\\', '\\'), ('/', '/'), ('b', '\x08'), ('f', '\x0c'), ('n', '\n'),
    ('r', '\r'), ('t', '\t')]

def escaped : Parser (Option Char) := do
  let c ← satisfy fun _ => true
  if c = 'u' then numbered else return some (← escapes.lookup c)

def isPlain (c : Char) : Bool := c != '"' && c != '\\' && 0x20 ≤ c.toNat

/-- Reads a piece of a string: a run of characters that stand for themselves, or a
character that is escaped. -/
def stringPiece : Parser (Option (List Char)) :=
  some <$> run1 isPlain <|>
  (do exactly ['\\']; return (← escaped).map ([·]))

/-- Reads a string; none if it holds no Unicode text. -/
def text : Parser (Option String) := do
  exactly ['"']
  let pieces ← many stringPiece
  mark '"'
  return (pieces.mapM id).map fun cs => String.ofList cs.flatten

def wholeDigits : Parser (List Char) :=
  (do exactly ['0']; return ['0']) <|>
  (do
    let c ← satisfy fun c => '1' ≤ c && c ≤ '9'
    let cs ← run Char.isDigit
    return c :: cs)

def fraction : Parser (List Char) := do
  exactly ['.']
  let cs ← run1 Char.isDigit
  return '.' :: cs

def exponent : Parser (List Char) := do
  let e ← satisfy fun c => c == 'e' || c == 'E'
  let sign ← Parser.optional (satisfy fun c => c == '+' || c == '-')
  let cs ← run1 Char.isDigit
  return e :: (sign.toList ++ cs)

def numeral : Parser Json := do
  let sign ← Parser.optional (satisfy (· == '-'))
  let whole ← wholeDigits
  let part ← Parser.optional fraction
  let power ← Parser.optional exponent
  blanks
  return .number (String.ofList
    (sign.toList ++ whole ++ part.getD [] ++ power.getD []))

def wordValue : Parser Json :=
  (do exactly "null".toList; blanks; return .null) <|>
  (do exactly "true".toList; blanks; return .bool true) <|>
  (do exactly "false".toList; blanks; return .bool false)

def field (inner : Parser Json) : Parser (Option String × Json) := do
  let key ← text
  mark ':'
  let value ← inner
  return (key, value)

/-- The object with the given fields, if all keys hold text. -/
def ofKeys (fields : List (Option String × Json)) : Json :=
  match fields.mapM fun (key, value) => key.map (·, value) with
  | some fields => .object fields
  | none => .illFormed

def arrayOf (inner : Parser Json) : Parser Json := do
  mark '['
  let items ← list0 inner (mark ',')
  mark ']'
  return .array items

def objectOf (inner : Parser Json) : Parser Json := do
  mark '\x7b'
  let fields ← list0 (field inner) (mark ',')
  mark '\x7d'
  return ofKeys fields

/-- Reads a value and the blanks after it, with at most `n` values around one another. -/
def value : Nat → Parser Json
  | 0 => failure
  | n + 1 => fun s =>
    ((do return ((← text).map Json.string).getD .illFormed) <|> numeral <|> wordValue <|>
      arrayOf (value n) <|> objectOf (value n)) s

def parse? (s : String) : Option Json :=
  let cs := s.toList
  wholly (do blanks; value cs.length) cs

end IdlDocs.Json
