import IdlDocs.Json.Record
import IdlDocs.Text.Lowercase

/-!
# Page requests

A request names an interface and which of its pages is wanted: the overview, the page
of its constructor, of a member or of an event.

* `Selector.relativePath`: **where a page belongs**, below the directory of its
  interface.
* `Request.ofJson?`, `Request.toJson`: reading and writing.
-/

namespace IdlDocs

/-- Which page of an interface is wanted. -/
inductive Selector
  | overview
  | constructor
  | member (name : String) (isStatic : Bool)
  | event (name : String)
deriving DecidableEq

/-- The request of a page. -/
structure Request where
  interface : String
  selector : Selector := .overview
  /-- The group that the page names; the table of groups says it otherwise. -/
  group : Option String := none
  /-- The page says that the interface is experimental. -/
  experimental : Bool := false
deriving DecidableEq

namespace Selector

/-- Where the page belongs, below the directory of its interface. -/
def relativePath (interface extension : String) : Selector → String
  | overview => s!"index.{extension}"
  | constructor => s!"{Text.lowercase interface}/index.{extension}"
  | member name _ => s!"{Text.lowercase name}/index.{extension}"
  | event name => s!"{Text.lowercase name}_event/index.{extension}"

/-- The JSON form of a selector. -/
def toJson : Selector → Json
  | overview => .object [("kind", .string "interface")]
  | constructor => .object [("kind", .string "constructor")]
  | member name isStatic =>
    .object [("kind", .string "member"), ("name", .string name), ("is_static", .bool isStatic)]
  | event name => .object [("kind", .string "event"), ("name", .string name)]

/-- The selector with the given JSON form. -/
def ofJson? (j : Json) : Option Selector := do
  let (word, body) ← j.tagged? "kind"
  match word with
  | "interface" => return overview
  | "constructor" => return constructor
  | "member" =>
    let r ← Json.record? ["name", "is_static"] body
    return member (← r.required? "name" Json.string?) (← r.required? "is_static" Json.bool?)
  | "event" =>
    let r ← Json.record? ["name"] body
    return event (← r.required? "name" Json.string?)
  | _ => none

end Selector

namespace Request

/-- Where the page belongs, below the directory of its interface. -/
def relativePath (r : Request) (extension : String) : String :=
  r.selector.relativePath r.interface extension

/-- The request of another page of the interface. -/
def select (r : Request) (selector : Selector) : Request := { r with selector }

def toJson (r : Request) : Json :=
  .object [("interface", .string r.interface), ("selector", r.selector.toJson),
    ("group", .stringOrNull r.group), ("experimental", .bool r.experimental)]

/-- The request with the given JSON form. -/
def ofJson? (j : Json) : Option Request := do
  let r ← Json.record? ["interface", "selector", "group", "experimental"] j
  return {
    interface := ← r.required? "interface" Json.string?
    selector := ← r.required? "selector" Selector.ofJson?
    group := ← r.nullable? "group" Json.string?
    experimental := ← r.required? "experimental" Json.bool? }

end Request

end IdlDocs
