import IdlDocs.Json.Basic
import IdlDocs.Text.Quoted

/-!
# Writing JSON

The compact form of a JSON value: no blanks, the fields in their order, and escapes
for quotes, backslashes and control characters only.

* `Json.chars`, `Json.compact`: the compact form.
-/

namespace IdlDocs.Json

def charText (c : Char) : List Char :=
  match c with
  | '"' => ['\\', '"']
  | '\\' => ['\\', '\\']
  | '\n' => ['\\', 'n']
  | '\r' => ['\\', 'r']
  | '\t' => ['\\', 't']
  | '\x08' => ['\\', 'b']
  | '\x0c' => ['\\', 'f']
  | c =>
    if c.toNat < 0x20 then
      let digits := Text.hexDigits c.toNat
      ['\\', 'u'] ++ List.replicate (4 - digits.length) '0' ++ digits
    else [c]

def stringText (s : String) : List Char := '"' :: (s.toList.flatMap charText ++ ['"'])

mutual

/-- The compact form of a value.  A value that holds no text is written as null. -/
def chars : Json → List Char
  | null => "null".toList
  | bool true => "true".toList
  | bool false => "false".toList
  | number literal => literal.toList
  | string s => stringText s
  | illFormed => "null".toList
  | array items => '[' :: ([','].intercalate (itemTexts items) ++ [']'])
  | object fields => '\x7b' :: ([','].intercalate (fieldTexts fields) ++ ['\x7d'])

def itemTexts : List Json → List (List Char)
  | [] => []
  | j :: js => j.chars :: itemTexts js

def fieldTexts : List (String × Json) → List (List Char)
  | [] => []
  | (key, j) :: rest => (stringText key ++ ':' :: j.chars) :: fieldTexts rest

end

def compact (j : Json) : String := String.ofList j.chars

end IdlDocs.Json
