import IdlDocs.Config
import IdlDocs.Json.Reader
import IdlDocs.Registry.Document
import IdlDocs.Registry.Source
import IdlDocs.Registry.Tables

/-!
# The registry

A **library** is a source of documents with the settings that say where they are.  A
**registry** remembers what has been loaded from a library: the three tables together,
and each document by name.  Both are kept once they have been loaded, and a failure
leaves no trace but in the list of locations that have been asked for.

* `Library.ofConfig`: the library that the settings ask for.
* `Lookup`, `Attempt`: what looks up documents, without or with the chance to fail.
* `Search`, `Inquiry`: the same, but with no bound on how many documents are looked up, so that
  they need not come to an end.
* `tables`, `location`, `document`: **what is loaded at most once.**
* `definitionsOf`: the definitions of a name.
-/

namespace IdlDocs

/-- A source of documents, with the settings. -/
structure Library where
  source : Source
  config : Config := {}

namespace Library

/-- Tells whether a name may be sent to where documents are outside: it holds no control
characters but tabs. -/
def isSendable (name : String) : Bool :=
  name.toList.all fun c => c == '\t' || (' ' ≤ c && c != '\x7f')

/-- The library that the settings ask for: the copy in a directory, or what is outside. -/
def ofConfig (files : Files.Tree) (c : Config) : Except Failure Library :=
  match c.mirror with
  | some root => .ok { source := .directory files root, config := c }
  | none =>
    if isSendable c.userAgent then .ok { source := .outside, config := c }
    else .error (.settings .userAgent)

end Library

/-- What has been loaded. -/
structure Registry where
  /-- The tables, if they have been loaded. -/
  kept : Option Tables := none
  /-- The documents that have been loaded, by name. -/
  documents : List (String × Document) := []
  /-- The locations that have been asked for, the last one first. -/
  asked : List String := []

abbrev Lookup := ReaderT Library (StateM Registry)

abbrev Attempt := ExceptT Failure Lookup

/-- Looks up documents, and gives nothing if this does not come to an end. -/
abbrev Search := OptionT Lookup

/-- Looks up documents, may fail, and gives nothing if it does not come to an end. -/
abbrev Inquiry := ExceptT Failure Search

/-- What an attempt gives, as a value. -/
def Attempt.result {α : Type} (a : Attempt α) : Lookup (Except Failure α) := ExceptT.run a

/-- What an inquiry gives, as a value. -/
def Inquiry.result {α : Type} (a : Inquiry α) : Search (Except Failure α) := ExceptT.run a

-- A value or a failure that is at hand is lifted directly, and not by way of an attempt.
instance (priority := low) : MonadLift Attempt Inquiry where
  monadLift a := ExceptT.mk (OptionT.lift a.result)

/-- What an attempt gives when nothing has been loaded before. -/
def Attempt.within {α : Type} (a : Attempt α) (l : Library) : Except Failure α :=
  ((a.result.run l).run {}).1

/-- What an inquiry gives when nothing has been loaded before. -/
def Inquiry.within {α : Type} (a : Inquiry α) (l : Library) : Option (Except Failure α) :=
  ((a.result.run.run l).run {}).1

/-- The definitions of a text that belongs to a name. -/
def parseFor (name source : String) : Except Failure Idl.Fragments :=
  (Idl.parse source).mapError (.source name)

/-- The location of the document of a name: what the index says, else the usual one. -/
def Tables.locationOf (t : Tables) (c : Config) (name : String) : String :=
  match (t.names.lookup name).bind (·.document) with
  | some location => c.resolve location
  | none => c.documentLocation name

namespace Registry

/-- The text at a location. -/
def fetch (name location : String) : Attempt String := do
  modify fun r => { r with asked := location :: r.asked }
  match (← read).source.answer location with
  | .ok text => return text
  | .error e => throw (.fetch name e.location e.cause)

def load {α : Type} (name location : String) (decode : Json → Option α) : Attempt α := do
  let text ← fetch name location
  match (Json.parse? text).bind decode with
  | some a => return a
  | none => throw (.decode name location)

/-- Loads the tables, one after the other.  They may also be loaded side by side: then, if two of
them cannot be loaded, the failure may be that of either. -/
def loadTables : Attempt Tables := do
  let c := (← read).config
  let groups ← load "GroupData" c.groups groupsOfJson?
  let names ← load "idlnames" c.names namesOfJson?
  let events ← load "events" c.events eventsOfJson?
  return { groups, names, events }

/-- The tables.  They are kept once all of them have been loaded. -/
def tables : Attempt Tables := do
  match (← get).kept with
  | some t => return t
  | none =>
    let t ← loadTables
    modify fun r => { r with kept := some t }
    return t

/-- The location of the document of a name, by the tables. -/
def location (name : String) : Attempt String := do
  let t ← tables
  return t.locationOf (← read).config name

/-- The document of a name.  It is kept once it has been loaded. -/
def document (name : String) : Attempt Document := do
  match (← get).documents.lookup name with
  | some d => return d
  | none =>
    let d ← load name (← location name) Document.ofJson?
    modify fun r => { r with documents := r.documents ++ [(name, d)] }
    return d

/-- The document of a name and all its definitions. -/
def definitionsOf (name : String) : Attempt (Document × Idl.Fragments) := do
  let d ← document name
  return (d, ← parseFor name d.combined)

def groupFor (interface : String) : Attempt (Option String) := do
  return groupOf? (← tables).groups interface

end Registry

end IdlDocs
