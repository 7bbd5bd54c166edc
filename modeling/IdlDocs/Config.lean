import IdlDocs.Failure
import IdlDocs.Files.Tree
import IdlDocs.Json.Basic
import IdlDocs.Toml.Reader

/-!
# Settings

Where documents are found and where pages go.  Each setting has a default value, so
an empty file of settings is valid; settings that are not known are passed over.

* `Config.resolve`: the location that a relative one stands for.
* `Config.ofText`, `Config.ofFile`: **the settings of a text and of a file.**
-/

namespace IdlDocs

/-- The settings. -/
structure Config where
  /-- The location of the table of groups. -/
  groups : String :=
    "https://raw.githubusercontent.com/mdn/content/main/files/jsondata/GroupData.json"
  /-- The location of the index of names. -/
  names : String := "https://raw.githubusercontent.com/w3c/webref/curated/ed/idlnames.json"
  /-- The location of the table of events. -/
  events : String := "https://w3c.github.io/webref/ed/events.json"
  /-- What relative locations stand behind. -/
  base : String := "https://w3c.github.io/webref/ed/"
  /-- The name by which the program asks for documents. -/
  userAgent : String := "idl-etch/0.1.0"
  /-- The extension of the files of pages. -/
  extension : String := "md"
  /-- The directory of templates that stand in for the built-in ones. -/
  templates : Option String := none
  /-- The directory with a copy of the documents. -/
  mirror : Option String := none
  /-- The directory of the pages. -/
  output : String := "docs"

namespace Config

def withoutLeadingSlashes (s : String) : String :=
  String.ofList (s.toList.dropWhile (· == '/'))

def withoutTrailingSlashes (s : String) : String :=
  String.ofList (s.toList.reverse.dropWhile (· == '/')).reverse

/-- Tells whether a location names the scheme of an address. -/
def isAbsolute (location : String) : Bool := (Text.cutAt "://".toList location.toList).isSome

/-- The location that a relative one stands for.  An address stands for itself. -/
def resolve (c : Config) (location : String) : String :=
  if isAbsolute location then location
  else
    let base := withoutTrailingSlashes c.base
    let relative := withoutLeadingSlashes location
    if base.isEmpty then relative else base ++ "/" ++ relative

def documentLocation (c : Config) (name : String) : String :=
  c.resolve s!"idlnamesparsed/{name}.json"

/-- The value of a setting, if it is set; refused if it is no text. -/
def setting (entries : Toml.Entries) (key : String) : Except Failure (Option String) :=
  match entries.lookup key with
  | none => .ok none
  | some (.text s) => .ok (some s)
  | some _ => .error (.settings .malformed)

def ofEntries (entries : Toml.Entries) : Except Failure Config := do
  let c : Config := {}
  return {
    groups := (← setting entries "group_data_url").getD c.groups
    names := (← setting entries "idl_names_url").getD c.names
    events := (← setting entries "events_url").getD c.events
    base := (← setting entries "idl_parsed_base").getD c.base
    userAgent := (← setting entries "user_agent").getD c.userAgent
    extension := (← setting entries "file_extension").getD c.extension
    templates := ← setting entries "templates_dir"
    mirror := ← setting entries "mirror_dir"
    output := (← setting entries "output_dir").getD c.output }

def validExtension (s : String) : Bool := !s.isEmpty && !(s.toList.contains '/')

def ofText (text : String) : Except Failure Config :=
  match Toml.parse? text with
  | none => .error (.settings .malformed)
  | some entries => do
    let c ← ofEntries entries
    if validExtension c.extension then return c
    else .error (.settings (.extension c.extension))

def ofFile (files : Files.Tree) (path : String) : Except Failure Config :=
  match files.read path with
  | .ok text => ofText text
  | .error .missing => .error (.fileNotFound path)
  | .error .isDirectory | .error .notText => .error .files

/-- The JSON form of the settings. -/
def toJson (c : Config) : Json :=
  .object [("group_data_url", .string c.groups), ("idl_names_url", .string c.names),
    ("events_url", .string c.events), ("idl_parsed_base", .string c.base),
    ("user_agent", .string c.userAgent), ("file_extension", .string c.extension),
    ("templates_dir", .stringOrNull c.templates), ("mirror_dir", .stringOrNull c.mirror),
    ("output_dir", .string c.output)]

end Config

end IdlDocs
