import IdlDocs.Templates.Reader
import IdlDocs.Templates.Rendering

/-!
# Template engines

An **engine** compiles source texts of templates, and renders a template within a table of
templates, in which it finds those that it includes.  What is known of an engine is that a source
text without a tag that includes a template includes none, and that a template that includes none
is rendered from itself alone.

* `hasInclusion`: whether a source text has a tag that includes a template.
* `Engine`: **engines.**
* `Engine.plain`: the engine for templates that include none.
-/

namespace IdlDocs.Templates

/-- The marks and blanks that may stand between the braces of a tag and the mark of an
inclusion. -/
def isTagLead (c : Char) : Bool := c.isWhitespace || c == '~' || c == '#'

/-- Tells whether a text that stands behind a brace opens a tag that includes a template. -/
def opensInclusion : List Char → Bool
  | '\x7b' :: cs => (cs.dropWhile isTagLead).head? == some '>'
  | _ => false

/-- Tells whether a source text has a tag that includes a template. -/
def hasInclusion : List Char → Bool
  | [] => false
  | c :: cs => (c == '\x7b' && opensInclusion cs) || hasInclusion cs

/-- A template engine, with the helpers of this library. -/
structure Engine where
  /-- Templates that have been compiled. -/
  Template : Type
  compile? : String → Option Template
  /-- The text of a template that is filled from a value, within a table of templates. -/
  render? : (String → Option Template) → Template → Json → Option String
  /-- The template includes no other one. -/
  IncludesNone : Template → Prop
  includesNone_of_compile? : ∀ {source t}, compile? source = some t →
    hasInclusion source.toList = false → IncludesNone t
  render?_of_includesNone : ∀ {t}, IncludesNone t → ∀ table table' data,
    render? table t data = render? table' t data

/-- The engine for templates that include none. -/
def Engine.plain : Engine where
  Template := Templates.Template
  compile? := parse?
  render? _ := Templates.render?
  IncludesNone _ := True
  includesNone_of_compile? _ _ := trivial
  render?_of_includesNone _ _ _ _ := rfl

end IdlDocs.Templates
