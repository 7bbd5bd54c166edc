import IdlDocs.Description.Expand
import IdlDocs.Description.Layout
import IdlDocs.Members.Order
import IdlDocs.Members.Selection

/-!
# Overviews

What the page of an interface lists: its static properties, properties, static methods
and methods, its events and its constructor, and the same four lists of its parent.
Event handlers are listed as events and not as properties.

* `memberGroups`: the four lists of a set of fragments.
* `eventNames`: the events of a set of fragments.
* `overview`: **what the page of an interface lists.**
-/

namespace IdlDocs

open Idl

/-- A property in a list. -/
structure PropertyEntry where
  name : String
  /-- The text of the description of its type. -/
  type : String
  isReadonly : Bool
  isSecure : Bool
deriving DecidableEq

/-- A method in a list. -/
structure MethodEntry where
  name : String
  isSecure : Bool
deriving DecidableEq

/-- The four lists of members.  A list that would be empty is absent. -/
structure MemberGroups where
  staticProperties : Option (List PropertyEntry) := none
  properties : Option (List PropertyEntry) := none
  staticMethods : Option (List MethodEntry) := none
  methods : Option (List MethodEntry) := none
deriving DecidableEq

/-- What the page of an interface lists. -/
structure Overview where
  name : String
  isSecure : Bool
  hasConstructor : Bool
  members : MemberGroups
  /-- The names of the events, in order. -/
  events : List String
  /-- The parent and its lists. -/
  parent : Option (String × MemberGroups)
deriving DecidableEq

def interfaceOf (name : String) (fs : Fragments) : Except Failure Interface :=
  match fs.mainInterface? with
  | some i => .ok i
  | none => .error (.notInterface name)

def MethodEntry.ofMember (m : Member) : MethodEntry := ⟨m.nameOrEmpty, m.isSecure⟩

/-- The text of the description of a type, with its list items at `depth`. -/
def formatType (depth : Nat) (t : TypeExpr) : Search String := do
  return (← describe t).render depth

/-- The entry of a property, with the text of the description of its type. -/
def PropertyEntry.ofMember (m : Member) (type : String) : PropertyEntry :=
  ⟨m.nameOrEmpty, type, m.readonly || m.kind == .const, m.isSecure⟩

def typeText (m : Member) : Search String :=
  match m.type with
  | some t => formatType listItemDepth t
  | none => return ""

def propertyEntry (m : Member) : Search PropertyEntry := do return .ofMember m (← typeText m)

def propertyEntries : Option (List Member) → Search (Option (List PropertyEntry))
  | none => return none
  | some ms => do return some (← ms.mapM propertyEntry)

/-- The first members that pass all tests, in the order of their names. -/
def selectSorted (fs : Fragments) (tests : List Test) : Option (List Member) :=
  (select fs tests).map sortByName

/-- The four lists of members of a set of fragments. -/
def memberGroups (fs : Fragments) : Search MemberGroups := do
  let static := selectSorted fs [Member.isAttribute, Member.isStatic]
  let plain := selectSorted fs
    [Member.isAttribute, Test.not Member.isStatic, Test.not Member.isEventHandler]
  let staticProperties ← propertyEntries static
  let properties ← propertyEntries plain
  let methods (tests : List Test) :=
    (selectSorted fs (Member.isOperation :: Member.isNamed :: tests)).map
      (·.map MethodEntry.ofMember)
  return {
    staticProperties, properties
    staticMethods := methods [Member.isStatic]
    methods := methods [Test.not Member.isStatic] }

/-- The names of the events of a set of fragments, in order of declaration. -/
def eventNames (fs : Fragments) : List String :=
  (selected fs [Member.isEventHandler]).filterMap Member.eventName?

/-- Tells whether a set of fragments has a constructor. -/
def hasConstructor (fs : Fragments) : Bool := !(selected fs [Member.isConstructor]).isEmpty

/-- The definitions of the parent of an interface: of the text that its document holds,
else of the own text of the parent's document. -/
def parentFragments (d : Document) (parent : String) : Attempt Fragments := do
  match d.parentText? with
  | some (name, text) => parseFor name text
  | none => do
    let p ← Registry.document parent
    parseFor parent p.text

/-- The parent of an interface and its lists, if it has one. -/
def parentGroups (d : Document) (main : Interface) :
    Inquiry (Option (String × MemberGroups)) := do
  match main.parent with
  | none => return none
  | some parent => return some (parent, ← memberGroups (← parentFragments d parent))

/-- What the page of an interface lists. -/
def overview (name : String) : Inquiry Overview := do
  let (d, fs) ← Registry.definitionsOf name
  let main ← interfaceOf name fs
  let members ← memberGroups fs
  let parent ← parentGroups d main
  return {
    name, members, parent
    isSecure := main.isSecure
    hasConstructor := hasConstructor fs
    events := sortNames (eventNames fs) }

end IdlDocs
