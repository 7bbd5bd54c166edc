import IdlDocs.Text.Cut

/-!
# Paths

A **path** is a text with slashes between its steps.  It starts at the root if it
starts with a slash, and names a directory if it ends with one.

* `joinPath`: a path behind another.
* `steps`: the steps of a path.
-/

namespace IdlDocs.Files

def fromRoot (path : String) : Bool := path.toList.head? == some '/'

def endsInSlash (path : String) : Bool := path.toList.getLast? == some '/'

/-- A path behind another one.  A path from the root stands for itself. -/
def joinPath (base path : String) : String :=
  if fromRoot path || base == "" then path
  else if endsInSlash base then base ++ path
  else base ++ "/" ++ path

def joinPaths (base : String) (paths : List String) : String := paths.foldl joinPath base

def slashParts (s : String) : List String := (Text.parts '/' s.toList).map String.ofList

/-- The parts of a text between its slashes that are not empty. -/
def segments (s : String) : List String := (slashParts s).filter (· != "")

/-- The steps of a path.  A slash at its end is the step that stays. -/
def steps (path : String) : List String :=
  segments path ++ (if endsInSlash path then ["."] else [])

/-- A name that a file or a directory may have. -/
def isName (step : String) : Bool :=
  step != "." && step != ".." && step.utf8ByteSize ≤ 255 && !(step.toList.contains '\x00')

end IdlDocs.Files
