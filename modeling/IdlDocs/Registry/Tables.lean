import IdlDocs.Json.Record

/-!
# Tables

Three tables are about all names: the groups that interfaces belong to, the index of
the documents, and the events.

* `groupOf?`: the first group that lists an interface.
* `findEvent?`: the first event of a name at a target.
* `groupsOfJson?`, `namesOfJson?`, `eventsOfJson?`: reading the tables.
-/

namespace IdlDocs

abbrev GroupTable := List (String × List String)

def groupOf? (groups : GroupTable) (interface : String) : Option String :=
  (groups.find? fun g => g.2.contains interface).map (·.1)

/-- Where the documents of a name are. -/
structure NameEntry where
  /-- The location of the source text. -/
  text : Option String := none
  /-- The location of the document. -/
  document : Option String := none
deriving DecidableEq

abbrev NameIndex := List (String × NameEntry)

/-- An event: its name, its interface and the interfaces it is fired at. -/
structure EventEntry where
  name : String
  interface : Option String := none
  targets : List String := []
deriving DecidableEq

abbrev EventTable := List EventEntry

def findEvent? (events : EventTable) (name target : String) : Option EventEntry :=
  events.find? fun e => e.name == name && e.targets.contains target

/-- The tables. -/
structure Tables where
  groups : GroupTable := []
  names : NameIndex := []
  events : EventTable := []

/-- The entries of a map.  A key that stands twice stays at its first place and has its
last value. -/
def lastEntries {α : Type} (entries : List (String × α)) : List (String × α) :=
  entries.foldl (fun found (key, a) =>
    if found.any (·.1 == key) then found.map fun e => if e.1 == key then (key, a) else e
    else found ++ [(key, a)]) []

def mapOfJson? {α : Type} (decode : Json → Option α) : Json → Option (List (String × α))
  | .object fields => do
    return lastEntries (← fields.mapM fun (key, j) => do return (key, ← decode j))
  | _ => none

def groupOfJson? (j : Json) : Option (List String) := do
  (← Json.record? ["interfaces"] j).withDefault? "interfaces" [] Json.strings?

/-- The table of groups: the first item of an array. -/
def groupsOfJson? (j : Json) : Option GroupTable := do
  return (← Json.list? (mapOfJson? groupOfJson?) j).headD []

/-- The entry of the index with the given JSON form. -/
def nameOfJson? (j : Json) : Option NameEntry := do
  let r ← Json.record? ["fragment", "parsed"] j
  return {
    text := ← r.optional? "fragment" Json.string?
    document := ← r.optional? "parsed" Json.string? }

def namesOfJson? (j : Json) : Option NameIndex := mapOfJson? nameOfJson? j

def targetOfJson? (j : Json) : Option String := do
  (← Json.record? ["target"] j).required? "target" Json.string?

def eventOfJson? (j : Json) : Option EventEntry := do
  let r ← Json.record? ["type", "interface", "targets"] j
  return {
    name := ← r.required? "type" Json.string?
    interface := ← r.optional? "interface" Json.string?
    targets := ← r.withDefault? "targets" [] (Json.list? targetOfJson?) }

def eventsOfJson? (j : Json) : Option EventTable := Json.list? eventOfJson? j

def groupsToJson (groups : GroupTable) : Json :=
  .object (groups.map fun (name, interfaces) =>
    (name, .object [("interfaces", .strings interfaces)]))

/-- The JSON form of an entry of the index. -/
def NameEntry.toJson (e : NameEntry) : Json :=
  .object [("fragment", .stringOrNull e.text), ("parsed", .stringOrNull e.document)]

def namesToJson (names : NameIndex) : Json :=
  .object (names.map fun (name, e) => (name, e.toJson))

/-- The JSON form of an event. -/
def EventEntry.toJson (e : EventEntry) : Json :=
  .object [("type", .string e.name), ("interface", .stringOrNull e.interface),
    ("targets", .array (e.targets.map fun t => .object [("target", .string t)]))]

def eventsToJson (events : EventTable) : Json := .array (events.map EventEntry.toJson)

end IdlDocs
