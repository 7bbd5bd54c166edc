import IdlDocs.Text.HiddenTable
import IdlDocs.Text.Lowercase

/-!
# Quoted texts

A quoted text stands between double quotes and shows every character: quotes and
backslashes with a backslash, line breaks, tabs and the null character by a
letter, and each other character that does not show by its number in hexadecimal.
-/

namespace IdlDocs.Text

/-- The digits of a number in base sixteen, in small letters. -/
def hexDigits (n : Nat) : List Char := Nat.toDigits 16 n

def isHidden (c : Char) : Bool :=
  let n := c.toNat
  n < 0x20 || n == 0x7f || inRanges hiddenRanges n

def quotedChar (c : Char) : List Char :=
  match c with
  | '"' => ['\\', '"']
  | '\\' => ['\\', '\\']
  | '\n' => ['\\', 'n']
  | '\t' => ['\\', 't']
  | '\r' => ['\\', 'r']
  | '\x00' => ['\\', '0']
  | c => if isHidden c then ['\\', 'u', '\x7b'] ++ hexDigits c.toNat ++ ['\x7d'] else [c]

/-- The text between double quotes, with every character shown. -/
def quoted (s : String) : String :=
  String.ofList ('"' :: s.toList.flatMap quotedChar ++ ['"'])

end IdlDocs.Text
