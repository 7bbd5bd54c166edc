import IdlDocs.Idl.Definition
import IdlDocs.Json.Record

/-!
# Definitions as JSON

The JSON form of types, members and definitions.  A type, a generic constructor with
a tag of its own and a definition say by one word which form they have; members and
definitions are records, of which the parts that say nothing are left out.

* `toJson`, `ofJson?` of `TypeExpr`, `Argument`, `Member`, `Definition`: writing and
  reading.
-/

namespace IdlDocs.Idl

def attributesToJson (names : List String) : List Json :=
  names.map fun name => .object [("name", .string name)]

def attributeOfJson? (j : Json) : Option String := do
  (← Json.record? ["name"] j).required? "name" Json.string?

namespace GenericKind

/-- The constructors without a tag of their own, by their words. -/
def words : List (String × GenericKind) :=
  [("sequence", sequence), ("frozenArray", frozenArray), ("observableArray", observableArray),
    ("array", array), ("record", record), ("promise", promise)]

/-- The JSON form of a constructor of generic types. -/
def toJson : GenericKind → Json
  | sequence => .string "sequence"
  | frozenArray => .string "frozenArray"
  | observableArray => .string "observableArray"
  | array => .string "array"
  | record => .string "record"
  | promise => .string "promise"
  | other tag => .object [("other", .string tag)]

/-- The constructor of generic types with the given JSON form. -/
def ofJson? : Json → Option GenericKind
  | .object [("other", .string tag)] => some (other tag)
  | j => Json.choice? words j

end GenericKind

namespace TypeExpr

mutual

/-- The JSON form of a type. -/
def toJson : TypeExpr → Json
  | named name => .object [("named", .string name)]
  | union members => .object [("union", .array (listToJson members))]
  | generic kind args =>
    .object [("generic", .object [("kind", kind.toJson), ("args", .array (listToJson args))])]
  | nullable inner => .object [("nullable", inner.toJson)]

def listToJson : List TypeExpr → List Json
  | [] => []
  | t :: ts => t.toJson :: listToJson ts

end

/-- The type with the given JSON form. -/
def ofJson? : Json → Option TypeExpr
  | .object [("named", .string name)] => some (named name)
  | .object [("union", .array members)] => do
    return union (← members.attach.mapM fun ⟨j, _⟩ => ofJson? j)
  | .object [("nullable", inner)] => do return nullable (← ofJson? inner)
  | .object [("generic", body)] =>
    match hr : Json.record? ["kind", "args"] body with
    | none => none
    | some r => do
      let kind ← r.required? "kind" GenericKind.ofJson?
      match ha : r.get? "args" with
      | some (.array args) =>
        have := Json.sizeOf_of_record? hr ha
        return generic kind (← args.attach.mapM fun ⟨j, _⟩ => ofJson? j)
      | _ => none
  | _ => none
termination_by j => sizeOf j
decreasing_by
  · have := List.sizeOf_lt_of_mem ‹_ ∈ members›
    simp only [Json.object.sizeOf_spec, List.cons.sizeOf_spec, Prod.mk.sizeOf_spec,
      Json.array.sizeOf_spec]
    omega
  · simp only [Json.object.sizeOf_spec, List.cons.sizeOf_spec, Prod.mk.sizeOf_spec]
    omega
  · have := List.sizeOf_lt_of_mem ‹_ ∈ args›
    simp only [Json.object.sizeOf_spec, List.cons.sizeOf_spec, Prod.mk.sizeOf_spec,
      Json.array.sizeOf_spec] at *
    omega

end TypeExpr

namespace Argument

/-- The JSON form of an argument. -/
def toJson (a : Argument) : Json :=
  .ofFields [("name", some (.string a.name)), ("idlType", some a.type.toJson),
    ("optional", some (.bool a.optional)), ("variadic", some (.bool a.variadic)),
    ("extAttrs", Json.arrayUnlessEmpty (attributesToJson a.attributes))]

/-- The argument with the given JSON form. -/
def ofJson? (j : Json) : Option Argument := do
  let r ← Json.record? ["name", "idlType", "optional", "variadic", "extAttrs"] j
  return {
    name := ← r.required? "name" Json.string?
    type := ← r.required? "idlType" TypeExpr.ofJson?
    optional := ← r.withDefault? "optional" false Json.bool?
    variadic := ← r.withDefault? "variadic" false Json.bool?
    attributes := ← r.withDefault? "extAttrs" [] (Json.list? attributeOfJson?) }

end Argument

namespace MemberKind

/-- The word for a kind of members. -/
def toWord : MemberKind → String
  | attr => "attribute"
  | operation => "operation"
  | constructor => "constructor"
  | const => "const"
  | declaration => "declaration"

/-- The kinds of members, by their words. -/
def words : List (String × MemberKind) :=
  [attr, operation, constructor, const, declaration].map fun k => (k.toWord, k)

end MemberKind

namespace Qualifier

def toWord : Qualifier → String
  | plain => "none"
  | static => "static"
  | getter => "getter"
  | setter => "setter"
  | deleter => "deleter"
  | stringifier => "stringifier"
  | inherit => "inherit"

def words : List (String × Qualifier) :=
  [plain, static, getter, setter, deleter, stringifier, inherit].map fun q => (q.toWord, q)

end Qualifier

namespace Member

/-- The JSON form of a member. -/
def toJson (m : Member) : Json :=
  .ofFields [("kind", some (.string m.kind.toWord)), ("name", m.name.map .string),
    ("special", some (.string m.qualifier.toWord)), ("readonly", some (.bool m.readonly)),
    ("idlType", m.type.map TypeExpr.toJson),
    ("extAttrs", Json.arrayUnlessEmpty (attributesToJson m.attributes)),
    ("arguments", Json.arrayUnlessEmpty (m.arguments.map Argument.toJson))]

/-- The member with the given JSON form. -/
def ofJson? (j : Json) : Option Member := do
  let r ← Json.record?
    ["kind", "name", "special", "readonly", "idlType", "extAttrs", "arguments"] j
  return {
    kind := ← r.required? "kind" (Json.choice? MemberKind.words)
    name := ← r.optional? "name" Json.string?
    qualifier := ← r.withDefault? "special" .plain (Json.choice? Qualifier.words)
    readonly := ← r.withDefault? "readonly" false Json.bool?
    type := ← r.optional? "idlType" TypeExpr.ofJson?
    attributes := ← r.withDefault? "extAttrs" [] (Json.list? attributeOfJson?)
    arguments := ← r.withDefault? "arguments" [] (Json.list? Argument.ofJson?) }

end Member

namespace InterfaceKind

/-- The word for a kind of definitions with members. -/
def toWord : InterfaceKind → String
  | interface => "interface"
  | mixin => "mixin"
  | callbackInterface => "callbackInterface"
  | namespaceObject => "namespace"

/-- The kinds of definitions with members, by their words. -/
def words : List (String × InterfaceKind) :=
  [interface, mixin, callbackInterface, namespaceObject].map fun k => (k.toWord, k)

end InterfaceKind

namespace Field

/-- The JSON form of a field. -/
def toJson (f : Field) : Json :=
  .object [("name", .string f.name), ("idlType", f.type.toJson), ("required", .bool f.required)]

/-- The field with the given JSON form. -/
def ofJson? (j : Json) : Option Field := do
  let r ← Json.record? ["name", "idlType", "required"] j
  return {
    name := ← r.required? "name" Json.string?
    type := ← r.required? "idlType" TypeExpr.ofJson?
    required := ← r.withDefault? "required" false Json.bool? }

end Field

namespace Definition

/-- The JSON form of a definition. -/
def toJson : Definition → Json
  | interface b =>
    .ofFields [("type", some (.string "interface")), ("name", some (.string b.name)),
      ("kind", some (.string b.kind.toWord)), ("partial", some (.bool b.isPartial)),
      ("inheritance", b.parent.map .string),
      ("extAttrs", Json.arrayUnlessEmpty (attributesToJson b.attributes)),
      ("members", some (.array (b.members.map Member.toJson)))]
  | dictionary b =>
    .ofFields [("type", some (.string "dictionary")), ("name", some (.string b.name)),
      ("partial", some (.bool b.isPartial)), ("inheritance", b.parent.map .string),
      ("fields", some (.array (b.fields.map Field.toJson)))]
  | enumeration b =>
    .object [("type", .string "enum"), ("name", .string b.name), ("values", .strings b.values)]
  | typedef name type =>
    .object [("type", .string "typedef"), ("name", .string name), ("idl_type", type.toJson)]
  | callback name returns =>
    .object [("type", .string "callback"), ("name", .string name),
      ("return_type", returns.toJson)]
  | includes target mixin =>
    .object [("type", .string "includes"), ("target", .string target), ("mixin", .string mixin)]

def interfaceOfJson? (j : Json) : Option Definition := do
  let r ← Json.record? ["name", "kind", "partial", "inheritance", "extAttrs", "members"] j
  return interface {
    name := ← r.required? "name" Json.string?
    kind := ← r.required? "kind" (Json.choice? InterfaceKind.words)
    isPartial := ← r.withDefault? "partial" false Json.bool?
    parent := ← r.optional? "inheritance" Json.string?
    attributes := ← r.withDefault? "extAttrs" [] (Json.list? attributeOfJson?)
    members := ← r.withDefault? "members" [] (Json.list? Member.ofJson?) }

def dictionaryOfJson? (j : Json) : Option Definition := do
  let r ← Json.record? ["name", "partial", "inheritance", "fields"] j
  return dictionary {
    name := ← r.required? "name" Json.string?
    isPartial := ← r.withDefault? "partial" false Json.bool?
    parent := ← r.optional? "inheritance" Json.string?
    fields := ← r.withDefault? "fields" [] (Json.list? Field.ofJson?) }

def enumerationOfJson? (j : Json) : Option Definition := do
  let r ← Json.record? ["name", "values"] j
  return enumeration {
    name := ← r.required? "name" Json.string?
    values := ← r.required? "values" Json.strings? }

def readers : List (String × (Json → Option Definition)) :=
  [("interface", interfaceOfJson?), ("dictionary", dictionaryOfJson?),
    ("enum", enumerationOfJson?),
    ("typedef", fun j => do
      let r ← Json.record? ["name", "idl_type"] j
      return typedef (← r.required? "name" Json.string?)
        (← r.required? "idl_type" TypeExpr.ofJson?)),
    ("callback", fun j => do
      let r ← Json.record? ["name", "return_type"] j
      return callback (← r.required? "name" Json.string?)
        (← r.required? "return_type" TypeExpr.ofJson?)),
    ("includes", fun j => do
      let r ← Json.record? ["target", "mixin"] j
      return includes (← r.required? "target" Json.string?)
        (← r.required? "mixin" Json.string?))]

/-- The definition with the given JSON form. -/
def ofJson? (j : Json) : Option Definition := do
  let (word, body) ← j.tagged? "type"
  (← readers.lookup word) body

end Definition

end IdlDocs.Idl
