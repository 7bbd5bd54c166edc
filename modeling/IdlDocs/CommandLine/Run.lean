import IdlDocs.CommandLine.Invocation
import IdlDocs.Interfaces.Lookup
import IdlDocs.Pages.Generation

/-!
# Running an invocation

* `Invocation.settings`: the settings of an invocation.
* `Invocation.run`: **what the program prints, and the files that it leaves**, if it comes to an
  end.
-/

namespace IdlDocs.CommandLine

/-- A failure, and what was being done when it arose, the outermost first. -/
structure Trouble where
  contexts : List String := []
  cause : Failure
deriving DecidableEq

def inContext {α : Type} (contexts : List String) (r : Except Failure α) : Except Trouble α :=
  r.mapError fun cause => { contexts, cause }

/-- What the program prints, or why it fails, and the files that it leaves. -/
structure Outcome where
  printed : Except Trouble String
  files : Files.Tree

/-! ## Settings -/

def Task.adjust (t : Task) (c : Config) : Config :=
  match t with
  | .generate _ _ output templates =>
    { c with output := output.getD c.output, templates := templates.or c.templates }
  | .list _ | .groups => c

def Invocation.settings (i : Invocation) (files : Files.Tree) : Except Trouble Config := do
  let c ← match i.config with
    | some path => inContext [s!"failed to load config {path}"] (Config.ofFile files path)
    | none => pure {}
  return i.task.adjust { c with mirror := i.mirror.or c.mirror }

/-! ## Tasks -/

def lines (ls : List String) : String := String.join (ls.map (· ++ "\n"))

def staticMark (e : IndexEntry) : String := if e.isStatic then " (static)" else ""

def listing (interface : String) (i : MemberIndex) : List String :=
  [interface] ++
    (if i.hasConstructor then [s!"  constructor  {interface}()"] else []) ++
    i.properties.map (fun e => s!"  property     {e.name}{staticMark e}") ++
    i.methods.map (fun e => s!"  method       {e.name}(){staticMark e}") ++
    i.events.map (fun e => s!"  event        {e}")

def pagesRoot (c : Config) (interface : String) : String :=
  Files.joinPath c.output (Text.lowercase interface)

/-- What is printed when pages have been written, and the files with them. -/
def writeOutcome (files : Files.Tree) (root : String) (ps : List GeneratedPage) : Outcome :=
  let (written, files) := writePages files root ps
  { printed := inContext [] (written.map fun _ => ""), files }

def outcomeOf {α : Type} (files : Files.Tree) (contexts : List String) (use : α → Outcome)
    (x : Except Failure α) : Outcome :=
  match inContext contexts x with
  | .ok a => use a
  | .error e => { printed := .error e, files }

variable {e : Templates.Engine}

/-- What a task gives with a renderer and a library, if it comes to an end. -/
def Task.perform (t : Task) (files : Files.Tree) (renderer : Templates.Renderer e) (l : Library) :
    Option Outcome :=
  match t with
  | .groups =>
    let use (ts : Tables) : Outcome := { printed := .ok (lines (ts.groups.map (·.1))), files }
    some (outcomeOf files [] use (Registry.tables.within l))
  | .list interface =>
    let use (i : MemberIndex) : Outcome := { printed := .ok (lines (listing interface i)), files }
    some (outcomeOf files [] use ((memberIndex interface).within l))
  | .generate r recursive output _ =>
    let root := pagesRoot l.config r.interface
    if recursive then
      ((generateAll renderer l.config.extension r).within l).map
        (outcomeOf files [s!"failed to generate pages for {r.interface}"] (writeOutcome files root))
    else
      let use (text : String) : Outcome :=
        match output with
        | none => { printed := .ok (lines [text]), files }
        | some _ => writeOutcome files root [⟨r.relativePath l.config.extension, text⟩]
      ((IdlDocs.generate renderer r).within l).map (outcomeOf files [] use)

/-- What the program prints, and the files that it leaves, if it comes to an end. -/
def Invocation.run (i : Invocation) (e : Templates.Engine) (files : Files.Tree) :
    Option Outcome :=
  let prepared : Except Trouble (Templates.Renderer e × Library) := do
    let c ← i.settings files
    let renderer ← inContext [] (Templates.Renderer.ofConfig e files c)
    let l ← inContext [] (Library.ofConfig files c)
    return (renderer, l)
  match prepared with
  | .ok (renderer, l) => i.task.perform files renderer l
  | .error e => some { printed := .error e, files }

end IdlDocs.CommandLine
