/-!
# Tables of settings

The values of the configuration format, and the rules by which its lines build up a
table.  A table is made by a header, by a dotted key, or as the parent of one that a
header names; no line may define twice what another line has defined.

* `Item`, `Entries`: values and tables.
* `insertAt`: the entry of a dotted key.
* `openTable`, `openArray`: what a header opens.
-/

namespace IdlDocs.Toml

/-- What makes a table. -/
inductive Origin
  /-- It is the parent of a table that a header names. -/
  | parent
  /-- It is the start of a dotted key. -/
  | dotted
  /-- A header names it. -/
  | header
deriving DecidableEq

/-- A value. -/
inductive Item
  | text (s : String)
  /-- A number, a truth value or a date. -/
  | scalar
  | array (items : List Item)
  /-- A table that is written in one line, and is complete. -/
  | inlineTable (entries : List (String × Item))
  | table (origin : Origin) (entries : List (String × Item))
  /-- An array of tables, the last one first. -/
  | tables (last : List (String × Item)) (before : List Item)

abbrev Entries := List (String × Item)

/-- Puts a value in the place of the value of a key, or behind all others. -/
def put (key : String) (item : Item) : Entries → Entries
  | [] => [(key, item)]
  | (k, i) :: rest => if k == key then (k, item) :: rest else (k, i) :: put key item rest

/-- Changes the table at the end of a path.  Tables on the path that are missing are
made for `origin`; a dotted key goes through no table that a header names. -/
def descend (origin : Origin) (path : List String) (here : Origin)
    (change : Origin → Entries → Option Entries) (entries : Entries) : Option Entries :=
  match path with
  | [] => change here entries
  | key :: path =>
    match entries.lookup key with
    | none => do return put key (.table origin (← descend origin path origin change [])) entries
    | some (.table made inner) =>
      if origin == .dotted && made == .header then none
      else do return put key (.table made (← descend origin path made change inner)) entries
    | some (.tables last before) => do
      return put key (.tables (← descend origin path .header change last) before) entries
    | some _ => none

/-- Adds the entry of a key with several parts to a table.  The table that a dotted key
ends in must be made by dotted keys. -/
def insertAt (path : List String) (key : String) (item : Item) (entries : Entries) :
    Option Entries :=
  descend .dotted path .header (fun here inner =>
    if (here == .dotted) == path.isEmpty || (inner.lookup key).isSome then none
    else some (put key item inner)) entries

def openTable (path : List String) (key : String) (entries : Entries) : Option Entries :=
  descend .parent path .header (fun _ inner =>
    match inner.lookup key with
    | none => some (put key (.table .header []) inner)
    | some (.table .parent found) => some (put key (.table .header found) inner)
    | some _ => none) entries

/-- Opens a new table at the end of the array that a header names. -/
def openArray (path : List String) (key : String) (entries : Entries) : Option Entries :=
  descend .parent path .header (fun _ inner =>
    match inner.lookup key with
    | none => some (put key (.tables [] []) inner)
    | some (.tables last before) => some (put key (.tables [] (.inlineTable last :: before)) inner)
    | some _ => none) entries

def withinOpen (path : List String) (change : Entries → Option Entries) (entries : Entries) :
    Option Entries :=
  descend .parent path .header (fun _ inner => change inner) entries

end IdlDocs.Toml
