import IdlDocs.Json.Record

/-!
# Documents

The document of a name holds the source text that defines it, the texts that extend
it, the texts of the mixins that it includes, and its parent.

* `Document.combined`: **the source text of all of it**, the own text first.
* `Document.parentText?`: the parent and its text, if the document holds it.
* `Document.ofJson?`, `Document.toJson`: reading and writing.
-/

namespace IdlDocs

/-- What the name of a document stands for. -/
inductive DocumentKind
  | interface
  | interfaceMixin
  | callbackInterface
  | namespaceObject
  | dictionary
  | enumeration
  | typedef
  | callback
  | other
deriving DecidableEq

namespace DocumentKind

/-- The word for a kind of documents. -/
def toWord : DocumentKind → String
  | interface => "interface"
  | interfaceMixin => "interface mixin"
  | callbackInterface => "callback interface"
  | namespaceObject => "namespace"
  | dictionary => "dictionary"
  | enumeration => "enum"
  | typedef => "typedef"
  | callback => "callback"
  | other => "other"

/-- The kinds of documents that are known, by their words. -/
def words : List (String × DocumentKind) :=
  [interface, interfaceMixin, callbackInterface, namespaceObject, dictionary, enumeration,
    typedef, callback].map fun k => (k.toWord, k)

/-- The kind that a word stands for.  Words that are not known stand for other kinds. -/
def ofJson? (j : Json) : Option DocumentKind :=
  j.word?.map fun word => (words.lookup word).getD other

end DocumentKind

/-- A mixin that an interface includes. -/
structure IncludedMixin where
  name : Option String := none
  text : String := ""
deriving DecidableEq

/-- What a name inherits from. -/
structure ParentEntry where
  name : String
  /-- The own text of the parent, if the document holds it. -/
  text : Option String := none
deriving DecidableEq

/-- The document of a name. -/
structure Document where
  name : Option String := none
  kind : DocumentKind := .other
  /-- The own source text. -/
  text : String := ""
  /-- The source texts that extend it. -/
  extensions : List String := []
  mixins : List IncludedMixin := []
  parent : Option ParentEntry := none
deriving DecidableEq

namespace Document

/-- The source texts of a document: its own, its extensions, its mixins. -/
def texts (d : Document) : List String := d.text :: (d.extensions ++ d.mixins.map (·.text))

/-- The source texts of a document, as one text. -/
def combined (d : Document) : String := "\n".intercalate d.texts

/-- The parent and its own text, if the document holds it. -/
def parentText? (d : Document) : Option (String × String) := do
  let p ← d.parent
  return (p.name, ← p.text)

def textOfJson? (j : Json) : Option String := do
  (← Json.record? ["fragment"] j).withDefault? "fragment" "" Json.string?

def textToJson (text : String) : Json := .object [("fragment", .string text)]

def mixinOfJson? (j : Json) : Option IncludedMixin := do
  let r ← Json.record? ["name", "defined"] j
  return {
    name := ← r.optional? "name" Json.string?
    text := ← r.withDefault? "defined" "" textOfJson? }

def parentOfJson? (j : Json) : Option ParentEntry := do
  let r ← Json.record? ["name", "defined"] j
  return {
    name := ← r.required? "name" Json.string?
    text := ← r.optional? "defined" textOfJson? }

/-- The document with the given JSON form. -/
def ofJson? (j : Json) : Option Document := do
  let r ← Json.record? ["name", "type", "defined", "extended", "includes", "inheritance"] j
  return {
    name := ← r.optional? "name" Json.string?
    kind := ← r.withDefault? "type" .other DocumentKind.ofJson?
    text := ← r.withDefault? "defined" "" textOfJson?
    extensions := ← r.withDefault? "extended" [] (Json.list? textOfJson?)
    mixins := ← r.withDefault? "includes" [] (Json.list? mixinOfJson?)
    parent := ← r.optional? "inheritance" parentOfJson? }

/-- The JSON form of a document. -/
def toJson (d : Document) : Json :=
  .object [("name", .stringOrNull d.name), ("type", .string d.kind.toWord),
    ("defined", textToJson d.text), ("extended", .array (d.extensions.map textToJson)),
    ("includes", .array (d.mixins.map fun m =>
      .object [("name", .stringOrNull m.name), ("defined", textToJson m.text)])),
    ("inheritance", d.parent.elim .null fun p =>
      .object [("name", .string p.name), ("defined", p.text.elim .null textToJson)])]

end Document

end IdlDocs
