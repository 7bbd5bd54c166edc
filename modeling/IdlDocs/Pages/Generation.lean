import IdlDocs.Interfaces.Lookup
import IdlDocs.Pages.Record
import IdlDocs.Pages.Request
import IdlDocs.Templates.Renderer

/-!
# Generating pages

* `assemble`: the record of a request.
* `generate`: **the page of a request.**
* `generateAll`: the overview of an interface and the pages of its constructor, its
  members and its events.  Where one of them fails, its failure stands in its place.
* `writePages`: the pages, written below a directory.
-/

namespace IdlDocs

open Idl Templates

variable {e : Engine}

/-- A page with the path of its file. -/
structure GeneratedPage where
  relativePath : String
  content : String
deriving DecidableEq

/-- The group that a page names: that of the request, else the one that lists the
interface. -/
def groupName (r : Request) : Attempt (Option String) :=
  match r.group with
  | some group => return some group
  | none => Registry.groupFor r.interface

def pageKind (m : Member) : PageKind :=
  match m.kind with
  | .constructor => .constructor
  | .operation => .method
  | .attr | .const | .declaration => .property

def parameterEntry (a : Argument) : Search ParameterEntry := do
  return ⟨a.name, ← formatType listItemDepth a.type, a.optional⟩

def parameterEntries (m : Member) : Search (Option (List ParameterEntry)) := do
  if (m.isOperation || m.isConstructor) && !m.arguments.isEmpty then
    return some (← m.arguments.mapM parameterEntry)
  else return none

def returnText (m : Member) : Search (Option String) := do
  match m.kind, m.type with
  | .operation, some t => if t.isUndefined then return none else return some (← formatType 0 t)
  | _, _ => return none

def propertyText (m : Member) : Search (Option String) := do
  match m.isAttribute, m.type with
  | true, some t => return some (← formatType 0 t)
  | _, _ => return none

def memberPage (r : Request) (found : FoundMember) (group : Option String) :
    Search MemberPage := do
  let m := found.member
  let parameters ← parameterEntries m
  let returnType ← returnText m
  let propertyType ← propertyText m
  return {
    interface := r.interface
    member := if m.isConstructor then r.interface else m.nameOrEmpty
    isExperimental := r.experimental
    group
    isStatic := !m.isConstructor && m.isStatic
    isConstructor := m.isConstructor
    isSecure := found.isSecure
    parameters, returnType
    kind := pageKind m
    propertyType
    isReadonly := m.readonly }

def eventPage (r : Request) (name : String) (found : FoundEvent) (group : Option String) :
    EventPage where
  interface := r.interface
  event := name
  isExperimental := r.experimental
  group := group
  isSecure := found.isSecure
  eventInterface := found.interface
  parentEventInterface := found.parent
  properties := found.properties

def assembleIn (r : Request) (group : Option String) : Inquiry Page := do
  match r.selector with
  | .overview =>
    return .interface (.ofOverview (← overview r.interface) group r.experimental)
  | .constructor =>
    let found ← findConstructor r.interface
    return .member (← memberPage r found group)
  | .member name isStatic =>
    let found ← findMember r.interface name isStatic
    return .member (← memberPage r found group)
  | .event name =>
    return .event (eventPage r name (← findEvent r.interface name) group)

/-- The record of a request. -/
def assemble (r : Request) : Inquiry Page := do
  assembleIn r (← groupName r)

/-- The text of a record. -/
def renderPage (renderer : Renderer e) (p : Page) : Except Failure String :=
  renderer.render p.template p.toJson

/-- The page of a request. -/
def generate (renderer : Renderer e) (r : Request) : Inquiry String := do
  renderPage renderer (← assemble r)

/-- The pages of an interface besides its overview. -/
def subSelectors (o : Overview) : List Selector :=
  let member (isStatic : Bool) (name : String) := Selector.member name isStatic
  (if o.hasConstructor then [.constructor] else []) ++
    (o.members.staticProperties.getD []).map (fun e => member true e.name) ++
    (o.members.properties.getD []).map (fun e => member false e.name) ++
    (o.members.staticMethods.getD []).map (fun e => member true e.name) ++
    (o.members.methods.getD []).map (fun e => member false e.name) ++
    o.events.map .event

/-- What stands in the place of a page: its text, or the note that it failed. -/
def textOrNote : Except Failure String → String
  | .ok text => text
  | .error e => "**Error:** " ++ e.message

/-- The page of a request, or the note that it failed, with the path of its file. -/
def generateSubPage (renderer : Renderer e) (extension : String) (r : Request) :
    Search GeneratedPage := do
  return ⟨r.relativePath extension, textOrNote (← (generate renderer r).result)⟩

def generateSubPages (renderer : Renderer e) (extension : String) (rs : List Request) :
    Search (List GeneratedPage) :=
  rs.mapM (generateSubPage renderer extension)

/-- The pages of an interface with its overview.  The request is that of the overview. -/
def generatePages (renderer : Renderer e) (extension : String) (root : Request) (o : Overview) :
    Inquiry (List GeneratedPage) := do
  let content ← renderPage renderer (.interface (.ofOverview o root.group root.experimental))
  let subPages ← generateSubPages renderer extension ((subSelectors o).map root.select)
  return ⟨root.relativePath extension, content⟩ :: subPages

/-- The overview of an interface, and the pages of its constructor, its static
properties, its properties, its static methods, its methods and its events. -/
def generateAll (renderer : Renderer e) (extension : String) (r : Request) :
    Inquiry (List GeneratedPage) := do
  let group ← groupName r
  let root : Request := { r with selector := .overview, group }
  generatePages renderer extension root (← overview root.interface)

/-! ## Writing pages -/

/-- The path of the file of a page, below a directory. -/
def GeneratedPage.path (root : String) (p : GeneratedPage) : String :=
  Files.joinPaths root (Files.slashParts p.relativePath)

/-- The paths of the pages that are written, and the files with them.  Pages are written
in their order, up to the first one that cannot be written. -/
def writePages (files : Files.Tree) (root : String) :
    List GeneratedPage → Except Failure (List String) × Files.Tree
  | [] => (.ok [], files)
  | p :: ps =>
    match files.write? (p.path root) p.content with
    | none => (.error .files, files)
    | some files =>
      let (written, files) := writePages files root ps
      (written.map (p.path root :: ·), files)

end IdlDocs
