import IdlDocs.Idl.Definition
import IdlDocs.Text.Lowercase
import IdlDocs.Text.Order

/-!
# The order of members

Members are listed by name without regard to case.  Of two names that differ in case
only, the one with the small letter comes first.

* `compareNames`: the order of names.
* `sortByName`: the members in this order; those of one name stay as they are.
-/

namespace IdlDocs.Idl

/-- The order of names: by their lowercase forms, then small letters first. -/
def compareNames (a b : String) : Ordering :=
  (Text.compareStrings (Text.lowercase a) (Text.lowercase b)).then (Text.compareStrings b a)

def namesInOrder (a b : String) : Bool := compareNames a b != .gt

def sortNames (names : List String) : List String := names.mergeSort namesInOrder

/-- Members in the order of their names. -/
def sortByName (members : List Member) : List Member :=
  members.mergeSort fun a b => namesInOrder a.nameOrEmpty b.nameOrEmpty

end IdlDocs.Idl
