import IdlDocs.Text.CaseTables

/-!
# Lowercase texts

The full lowercase mapping of Unicode, without a language.  Every character maps
by itself, with two exceptions: `İ` becomes the two characters `i` and the dot
above, and the capital sigma becomes the final sigma at the end of a word.

* `lowerChar`: the mapping of one character.
* `endsWord`: a sigma between two texts ends a word if a cased letter stands
  before it and none after it, marks and modifiers left out.
* `lowercase`: the mapping of a text.
-/

namespace IdlDocs.Text

def inRanges (ranges : List (Nat × Nat)) (n : Nat) : Bool :=
  ranges.any fun (first, last) => first ≤ n && n ≤ last

def isCased (c : Char) : Bool := inRanges casedRanges c.toNat

def isIgnorable (c : Char) : Bool := inRanges ignorableRanges c.toNat

/-- The target of code point `n` in a run of the lowercase mapping, if `n` lies in the run. -/
def runTarget? (n : Nat) : Nat × Nat × Nat × Nat → Option Nat
  | (first, last, step, target) =>
    if first ≤ n && n ≤ last && (n - first) % step == 0 then some (target + (n - first)) else none

def lowerChar (c : Char) : List Char :=
  if c.toNat < 128 then [c.toLower]
  else if c = 'İ' then ['i', Char.ofNat 0x307]
  else
    match lowerRuns.findSome? (runTarget? c.toNat) with
    | some n => [Char.ofNat n]
    | none => [c]

/-- The first character of the text that is not case-ignorable is cased. -/
def startsCased (s : List Char) : Bool :=
  match s.dropWhile isIgnorable with
  | c :: _ => isCased c
  | [] => false

/-- A capital sigma after `before` (read backwards) and in front of `after` is the
last letter of its word. -/
def endsWord (before after : List Char) : Bool := startsCased before && !startsCased after

/-- The lowercase form of a text that follows `before` (read backwards). -/
def lowerAfter (before : List Char) : List Char → List Char
  | [] => []
  | c :: s =>
    let here := if c = 'Σ' then [if endsWord before s then 'ς' else 'σ'] else lowerChar c
    here ++ lowerAfter (c :: before) s

def lowercase (s : String) : String := String.ofList (lowerAfter [] s.toList)

end IdlDocs.Text
