import IdlDocs.Config
import IdlDocs.Templates.BuiltIn
import IdlDocs.Templates.Engine

/-!
# Renderers

A **renderer** has a template for each name: the built-in one, or the one that a file of a
directory puts in its place.  All templates stand in one table, and may include one another.

* `Renderer.builtIn`: the renderer with the built-in templates.
* `Renderer.ofDirectory`, `Renderer.ofConfig`: the renderers of a directory and of the
  settings.
* `Renderer.render`: **the text of a template.**
-/

namespace IdlDocs.Templates

/-- The templates of an engine, by their names; the last one that has been registered under a name
stands first. -/
structure Renderer (e : Engine) where
  templates : List (String × e.Template) := []

namespace Renderer

variable {e : Engine}

/-- The template of a name, if there is one. -/
def template? (r : Renderer e) (name : String) : Option e.Template := r.templates.lookup name

/-- The renderer with a source text as the template of a name. -/
def register (r : Renderer e) (name source : String) : Except Failure (Renderer e) :=
  match e.compile? source with
  | some t => .ok { templates := (name, t) :: r.templates }
  | none => .error .template

/-- The renderer with the built-in templates. -/
def builtIn (e : Engine) : Except Failure (Renderer e) :=
  TemplateName.all.foldlM (fun r n => r.register n.toWord n.source) {}

/-- The renderer with the file of a name in the place of its template, if there is a file. -/
def override (files : Files.Tree) (directory : String) (r : Renderer e) (n : TemplateName) :
    Except Failure (Renderer e) :=
  let path := Files.joinPath directory n.fileName
  if files.isFile path then
    match files.read path with
    | .ok source => r.register n.toWord source
    | .error _ => .error .files
  else .ok r

/-- The built-in templates, with the files of a directory in their places. -/
def ofDirectory (e : Engine) (files : Files.Tree) (directory : String) :
    Except Failure (Renderer e) := do
  if files.isDirectory directory then
    TemplateName.all.foldlM (override files directory) (← builtIn e)
  else .error (.fileNotFound directory)

def ofConfig (e : Engine) (files : Files.Tree) (c : Config) : Except Failure (Renderer e) :=
  match c.templates with
  | some directory => ofDirectory e files directory
  | none => builtIn e

/-- The text of the template of a name that is filled from a value. -/
def render (r : Renderer e) (n : TemplateName) (data : Json) : Except Failure String :=
  match (r.template? n.toWord).bind fun t => e.render? r.template? t data with
  | some text => .ok text
  | none => .error .template

end Renderer

end IdlDocs.Templates
