/-!
# The order of texts

Texts are compared character by character, by code point; a proper start of a
text is below it.
-/

namespace IdlDocs.Text

def compareChars : List Char → List Char → Ordering
  | [], [] => .eq
  | [], _ :: _ => .lt
  | _ :: _, [] => .gt
  | a :: s, b :: t =>
    if a.toNat < b.toNat then .lt
    else if b.toNat < a.toNat then .gt
    else compareChars s t

def compareStrings (a b : String) : Ordering := compareChars a.toList b.toList

def notAbove (a b : String) : Bool := compareStrings a b != .gt

def sortStrings (l : List String) : List String := l.mergeSort notAbove

end IdlDocs.Text
