import IdlDocs.Members.Tests

/-!
# Selecting members

Overloads are documented once, by their first declaration: all constructors are one
member, and any other members are one if they have the same name or have none.

* `Member.identity`: what makes two members one.
* `extract`: the walk over the members that remembers the identities that it has met.
* `select`: **the members that are kept**, in the order of declaration.
-/

namespace IdlDocs.Idl

/-- What makes two members one. -/
inductive Identity
  | constructor
  | named (name : Option String)
deriving DecidableEq

def Member.identity (m : Member) : Identity :=
  if m.isConstructor then .constructor else .named m.name

abbrev Test := Member → Bool

def Test.not (t : Test) : Test := fun m => !t m

/-- How far a walk over members has come. -/
structure Extraction where
  /-- The identities that have been met. -/
  seen : List Identity := []
  /-- The members that are kept. -/
  kept : List Member := []

/-- The next member.  Its identity counts as seen whether the member passes the tests or not. -/
def Extraction.step (tests : List Test) (x : Extraction) (m : Member) : Extraction :=
  if x.seen.contains m.identity then x
  else
    let x := { x with seen := x.seen ++ [m.identity] }
    if tests.all (· m) then { x with kept := x.kept ++ [m] } else x

def extract (tests : List Test) (ms : List Member) : Extraction :=
  ms.foldl (Extraction.step tests) {}

/-- The members of a set of fragments that are kept. -/
def selected (fs : Fragments) (tests : List Test) : List Member := (extract tests fs.members).kept

/-- The members of a set of fragments that are kept, if there are any. -/
def select (fs : Fragments) (tests : List Test) : Option (List Member) :=
  match selected fs tests with
  | [] => none
  | ms => some ms

end IdlDocs.Idl
