import IdlDocs.CommandLine.Messages

/-!
# The program

Reads the files that an invocation is about, runs it, writes the files that it leaves
and prints what it says.
-/

namespace IdlDocs.Program

open CommandLine

/-- The tree with a file at a path whose content is no text. -/
def withBinary (t : Files.Tree) (path : String) : Option Files.Tree := do
  let t ← t.write? path ""
  return { t with root := t.root.put .binary (← t.place? path) }

/-- The tree with a file of the machine, or with an empty directory if a path leads to
one. -/
def withEntry (t : Files.Tree) (path : String) : IO Files.Tree := do
  try
    if ← (← IO.FS.realPath path).isDir then return (t.makeDirectory? path).getD t
    match String.fromUTF8? (← IO.FS.readBinFile path) with
    | some text => return (t.write? path text).getD t
    | none => return (withBinary t path).getD t
  catch _ => return t

partial def withDirectory (t : Files.Tree) (path : String) : IO Files.Tree := do
  let mut t ← withEntry t path
  if t.isDirectory path then
    for entry in ← (← IO.FS.realPath path).readDir do
      t ← withDirectory t (Files.joinPath path entry.fileName)
  return t

def emptyTree : IO Files.Tree := do
  let here := (← IO.currentDir).toString
  return { (({} : Files.Tree).makeDirectory? here).getD {} with current := Files.segments here }

def gather (i : Invocation) : IO Files.Tree := do
  let mut t ← emptyTree
  for path in i.config.toList do
    t ← withEntry t path
  if let .ok c := i.settings t then
    for path in c.mirror.toList ++ c.templates.toList do
      t ← withDirectory t path
  return t

/-- Writes files below the root of the machine. -/
def store (files : List (String × String)) : IO Unit := do
  for (path, text) in files do
    IO.FS.createDirAll (Files.joinPaths "/" (Files.segments path).dropLast)
    IO.FS.writeFile ("/" ++ path) text

/-- Runs an invocation, and gives the number that the program ends with. -/
def execute (i : Invocation) : IO UInt32 := do
  let before ← gather i
  match i.run .plain before with
  -- Where there is no outcome, the program does not get here.
  | none => return 1
  | some o =>
    store (o.files.changes before "/")
    match o.printed with
    | .ok text => IO.print text; return 0
    | .error e => IO.eprint e.message; return 1

end IdlDocs.Program

open IdlDocs.CommandLine in
def main (arguments : List String) : IO UInt32 := do
  match Invocation.parse arguments with
  | .ok i => IdlDocs.Program.execute i
  | .error u =>
    if u.exitCode == 0 then IO.print u.message else IO.eprint u.message
    return u.exitCode.toUInt32
