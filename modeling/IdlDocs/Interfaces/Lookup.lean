import IdlDocs.Interfaces.Overview

/-!
# Looking up members and events

* `findMember`: the member of an interface with a name, static or not.
* `findConstructor`: the constructor of an interface.
* `findEvent`: **an event of an interface**, with what its own interface says about it.
* `memberIndex`: what can be looked up.
-/

namespace IdlDocs

open Idl

/-- A member that has been looked up. -/
structure FoundMember where
  member : Member
  /-- The member or its interface is available in secure contexts only. -/
  isSecure : Bool

/-- An event that has been looked up. -/
structure FoundEvent where
  /-- The event handler. -/
  handler : Member
  isSecure : Bool
  /-- The interface of the event, if the table of events says it. -/
  interface : Option String
  /-- The parent of this interface. -/
  parent : Option String := none
  /-- The properties of this interface. -/
  properties : List PropertyEntry := []

/-- The interface of events that adds no properties. -/
def baseEvent : String := "Event"

/-- The definitions of an interface. -/
def fragmentsOf (interface : String) : Attempt Fragments := do
  let (_, fs) ← Registry.definitionsOf interface
  let _ ← interfaceOf interface fs
  return fs

/-- Tells whether the main definition of a set of fragments is available in secure
contexts only. -/
def mainIsSecure (fs : Fragments) : Bool := fs.mainInterface?.any Interface.isSecure

def firstSelected? (fs : Fragments) (tests : List Test) : Option Member :=
  (selected fs tests).head?

def foundMember (interface name : String) (fs : Fragments) (found : Option Member) :
    Except Failure FoundMember :=
  match found with
  | some m => .ok ⟨m, mainIsSecure fs || m.isSecure⟩
  | none => .error (.unknownMember interface name)

/-- The member of an interface with a name, static or not. -/
def findMember (interface name : String) (isStatic : Bool) : Attempt FoundMember := do
  let fs ← fragmentsOf interface
  let static : Test := if isStatic then Member.isStatic else Test.not Member.isStatic
  foundMember interface name fs (firstSelected? fs [static, Member.hasName name])

def findConstructor (interface : String) : Attempt FoundMember := do
  let fs ← fragmentsOf interface
  foundMember interface "constructor" fs (firstSelected? fs [Member.isConstructor])

def withEventInterface (e : FoundEvent) : Inquiry FoundEvent := do
  match e.interface with
  | none => return e
  | some name =>
    if name == baseEvent then return e
    let (_, fs) ← Registry.definitionsOf name
    let properties ← propertyEntries
      (select fs [Member.isAttribute, Test.not Member.isStatic])
    return { e with
      parent := fs.mainInterface?.bind (·.parent)
      properties := properties.getD [] }

def findEvent (interface event : String) : Inquiry FoundEvent := do
  let fs ← fragmentsOf interface
  let handlerName := handlerLead ++ event
  match firstSelected? fs [Member.isEventHandler, Member.hasName handlerName] with
  | none => throw (.unknownEvent interface event)
  | some handler =>
    let t ← Registry.tables
    withEventInterface {
      handler
      isSecure := mainIsSecure fs || handler.isSecure
      interface := (findEvent? t.events event interface).bind (·.interface) }

/-- A member in an index: its name, and whether it is static. -/
structure IndexEntry where
  name : String
  isStatic : Bool
deriving DecidableEq

/-- What can be looked up on an interface. -/
structure MemberIndex where
  properties : List IndexEntry
  hasConstructor : Bool
  methods : List IndexEntry
  events : List String
deriving DecidableEq

def IndexEntry.ofMember (m : Member) : IndexEntry := ⟨m.nameOrEmpty, m.isStatic⟩

/-- What can be looked up on an interface, in order of declaration. -/
def memberIndex (interface : String) : Attempt MemberIndex := do
  let fs ← fragmentsOf interface
  return {
    properties := (selected fs
      [Member.isAttribute, Member.isNamed, Test.not Member.isEventHandler]).map IndexEntry.ofMember
    hasConstructor := hasConstructor fs
    methods := (selected fs [Member.isOperation, Member.isNamed]).map IndexEntry.ofMember
    events := eventNames fs }

end IdlDocs
