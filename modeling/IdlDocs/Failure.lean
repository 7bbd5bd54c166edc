import IdlDocs.Idl.Source
import IdlDocs.Text.Quoted

/-!
# Failures

Why there is no document, no record or no page.

* `Failure`: the causes.
* `Failure.message`: **the message of each cause.**
* `Failure.document?`: the document that a failure is about.
-/

namespace IdlDocs

/-- Why a document cannot be fetched. -/
inductive FetchCause
  /-- No document is stored for the location. -/
  | noDocument
  /-- No file below the root is named by an end of the location. -/
  | notUnder (root : String)
  /-- There is a directory where the file should be. -/
  | isDirectory
  /-- There is a file whose content is no text. -/
  | notText
  /-- The location is outside, and there is no connection. -/
  | unreachable (location : String)
deriving DecidableEq

namespace FetchCause

def message : FetchCause → String
  | noDocument => "no such document"
  | notUnder root => "not found under " ++ root
  | isDirectory => "Is a directory (os error 21)"
  | notText => "stream did not contain valid UTF-8"
  | unreachable location => "error sending request for url (" ++ location ++ ")"

end FetchCause

/-- Why settings are refused. -/
inductive SettingsCause
  /-- They are not written in the format of settings. -/
  | malformed
  /-- The extension of files is empty or holds a slash. -/
  | extension (given : String)
  /-- The name of the program cannot be sent. -/
  | userAgent
deriving DecidableEq

/-- Why something cannot be had. -/
inductive Failure
  /-- A document cannot be fetched. -/
  | fetch (name location : String) (cause : FetchCause)
  /-- A document does not have the form of its kind. -/
  | decode (name location : String)
  /-- The definitions of a document cannot be read. -/
  | source (name : String) (error : Idl.SyntaxError)
  /-- The main definition of a document has no members. -/
  | notInterface (name : String)
  | unknownMember (interface member : String)
  | unknownEvent (interface event : String)
  /-- A template cannot be read, or does not fit its record. -/
  | template
  | settings (cause : SettingsCause)
  | fileNotFound (path : String)
  /-- A file cannot be read or written. -/
  | files
deriving DecidableEq

namespace Failure

/-- The message of a failure.  What another program reports is not part of it. -/
def message : Failure → String
  | fetch name location cause =>
    s!"Failed to fetch data for {name} from {location}: {cause.message}"
  | decode name location => s!"Failed to parse data for {name} from {location}: "
  | source name error => s!"Failed to parse IDL for {name}: {error.message}"
  | notInterface name => s!"{name} is not a documentable interface"
  | unknownMember interface member => s!"Unknown {interface}.{member}"
  | unknownEvent interface event => s!"Unknown event {event} for {interface}"
  | template => "Template error: "
  | settings .malformed => "Configuration error: "
  | settings (.extension given) =>
    s!"Configuration error: invalid file_extension: {Text.quoted given}"
  | settings .userAgent => "Configuration error: failed to build HTTP client: "
  | fileNotFound path => s!"File not found: {path}"
  | files => "IO error: "

def document? : Failure → Option String
  | fetch name _ _ | decode name _ | source name _ | notInterface name => some name
  | unknownMember _ _ | unknownEvent _ _ | template | settings _ | fileNotFound _ | files => none

end Failure

theorem eq_ok_of_toOption {ε α : Type} {x : Except ε α} {a : α} (h : x.toOption = some a) :
    x = .ok a := by
  cases x with
  | error e => cases h
  | ok b => exact congrArg Except.ok (Option.some.inj h)

end IdlDocs
