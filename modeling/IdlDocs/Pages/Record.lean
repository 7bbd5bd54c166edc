import IdlDocs.Interfaces.Overview
import IdlDocs.Templates.BuiltIn

/-!
# Page records

What a template is filled from: a record for each kind of page.  What is absent is
null, so that a template can ask for it.

* `InterfacePage`, `MemberPage`, `EventPage`, `Page`: the records.
* `Page.template`: the template of a record.
* `toJson`, `ofJson?`: writing and reading.
-/

namespace IdlDocs

open Templates (TemplateName)

structure InterfacePage where
  interface : String
  isExperimental : Bool
  group : Option String
  isSecure : Bool
  hasConstructor : Bool
  members : MemberGroups
  events : List String
  parent : Option String
  parentMembers : MemberGroups
deriving DecidableEq

/-- The kinds of pages of members. -/
inductive PageKind
  | property
  | method
  | constructor
deriving DecidableEq

/-- A parameter in a list. -/
structure ParameterEntry where
  name : String
  /-- The text of the description of its type. -/
  type : String
  optional : Bool
deriving DecidableEq

/-- The record of a property, a method or a constructor. -/
structure MemberPage where
  interface : String
  /-- The name of the member, of the interface for a constructor. -/
  member : String
  isExperimental : Bool
  group : Option String
  isStatic : Bool
  isConstructor : Bool
  isSecure : Bool
  /-- Absent for properties, and where there are none. -/
  parameters : Option (List ParameterEntry)
  /-- Absent for properties, and where nothing is returned. -/
  returnType : Option String
  kind : PageKind
  propertyType : Option String
  isReadonly : Bool
deriving DecidableEq

structure EventPage where
  interface : String
  event : String
  isExperimental : Bool
  group : Option String
  isSecure : Bool
  /-- Absent if the table of events does not say it. -/
  eventInterface : Option String
  parentEventInterface : Option String
  properties : List PropertyEntry
deriving DecidableEq

/-- A record. -/
inductive Page
  | interface (page : InterfacePage)
  | member (page : MemberPage)
  | event (page : EventPage)
deriving DecidableEq

namespace PageKind

def template : PageKind → TemplateName
  | property => .property
  | method => .method
  | constructor => .constructor

def words : List (String × PageKind) :=
  [property, method, constructor].map fun k => (k.template.toWord, k)

end PageKind

/-! ## Entries -/

def PropertyEntry.toJson (e : PropertyEntry) : Json :=
  .object [("name", .string e.name), ("formattedType", .string e.type),
    ("isReadonly", .bool e.isReadonly), ("isSecureContext", .bool e.isSecure)]

/-- The property with the given JSON form. -/
def PropertyEntry.ofJson? (j : Json) : Option PropertyEntry := do
  let r ← Json.record? ["name", "formattedType", "isReadonly", "isSecureContext"] j
  return {
    name := ← r.required? "name" Json.string?
    type := ← r.required? "formattedType" Json.string?
    isReadonly := ← r.required? "isReadonly" Json.bool?
    isSecure := ← r.required? "isSecureContext" Json.bool? }

def MethodEntry.toJson (e : MethodEntry) : Json :=
  .object [("name", .string e.name), ("isSecureContext", .bool e.isSecure)]

/-- The method with the given JSON form. -/
def MethodEntry.ofJson? (j : Json) : Option MethodEntry := do
  let r ← Json.record? ["name", "isSecureContext"] j
  return {
    name := ← r.required? "name" Json.string?
    isSecure := ← r.required? "isSecureContext" Json.bool? }

def ParameterEntry.toJson (e : ParameterEntry) : Json :=
  .object [("name", .string e.name), ("formattedType", .string e.type),
    ("optional", .bool e.optional)]

/-- The parameter with the given JSON form. -/
def ParameterEntry.ofJson? (j : Json) : Option ParameterEntry := do
  let r ← Json.record? ["name", "formattedType", "optional"] j
  return {
    name := ← r.required? "name" Json.string?
    type := ← r.required? "formattedType" Json.string?
    optional := ← r.required? "optional" Json.bool? }

def listOrNull {α : Type} (toJson : α → Json) : Option (List α) → Json
  | some as => .array (as.map toJson)
  | none => .null

/-! ## Records -/

namespace InterfacePage

def ofOverview (o : Overview) (group : Option String) (isExperimental : Bool) :
    InterfacePage where
  interface := o.name
  isExperimental := isExperimental
  group := group
  isSecure := o.isSecure
  hasConstructor := o.hasConstructor
  members := o.members
  events := o.events
  parent := o.parent.map (·.1)
  parentMembers := (o.parent.map (·.2)).getD {}

/-- The JSON form of the record of an interface. -/
def toJson (p : InterfacePage) : Json :=
  .object [("interfaceName", .string p.interface), ("isExperimental", .bool p.isExperimental),
    ("groupName", .stringOrNull p.group), ("isSecureContext", .bool p.isSecure),
    ("hasConstructor", .bool p.hasConstructor),
    ("staticProperties", listOrNull PropertyEntry.toJson p.members.staticProperties),
    ("properties", listOrNull PropertyEntry.toJson p.members.properties),
    ("staticMethods", listOrNull MethodEntry.toJson p.members.staticMethods),
    ("methods", listOrNull MethodEntry.toJson p.members.methods),
    ("eventNames", .strings p.events), ("parentName", .stringOrNull p.parent),
    ("parentStaticProperties", listOrNull PropertyEntry.toJson p.parentMembers.staticProperties),
    ("parentProperties", listOrNull PropertyEntry.toJson p.parentMembers.properties),
    ("parentStaticMethods", listOrNull MethodEntry.toJson p.parentMembers.staticMethods),
    ("parentMethods", listOrNull MethodEntry.toJson p.parentMembers.methods)]

/-- The record of an interface with the given JSON form. -/
def ofJson? (j : Json) : Option InterfacePage := do
  let r ← Json.record? ["interfaceName", "isExperimental", "groupName", "isSecureContext",
    "hasConstructor", "staticProperties", "properties", "staticMethods", "methods",
    "eventNames", "parentName", "parentStaticProperties", "parentProperties",
    "parentStaticMethods", "parentMethods"] j
  let properties (key : String) := r.nullable? key (Json.list? PropertyEntry.ofJson?)
  let methods (key : String) := r.nullable? key (Json.list? MethodEntry.ofJson?)
  return {
    interface := ← r.required? "interfaceName" Json.string?
    isExperimental := ← r.required? "isExperimental" Json.bool?
    group := ← r.nullable? "groupName" Json.string?
    isSecure := ← r.required? "isSecureContext" Json.bool?
    hasConstructor := ← r.required? "hasConstructor" Json.bool?
    members := {
      staticProperties := ← properties "staticProperties"
      properties := ← properties "properties"
      staticMethods := ← methods "staticMethods"
      methods := ← methods "methods" }
    events := ← r.required? "eventNames" Json.strings?
    parent := ← r.nullable? "parentName" Json.string?
    parentMembers := {
      staticProperties := ← properties "parentStaticProperties"
      properties := ← properties "parentProperties"
      staticMethods := ← methods "parentStaticMethods"
      methods := ← methods "parentMethods" } }

end InterfacePage

namespace MemberPage

/-- The JSON form of the record of a member. -/
def toJson (p : MemberPage) : Json :=
  .object [("interfaceName", .string p.interface), ("memberName", .string p.member),
    ("isExperimental", .bool p.isExperimental), ("groupName", .stringOrNull p.group),
    ("isStatic", .bool p.isStatic), ("isConstructor", .bool p.isConstructor),
    ("isSecureContext", .bool p.isSecure),
    ("parameters", listOrNull ParameterEntry.toJson p.parameters),
    ("returnType", .stringOrNull p.returnType),
    ("pageKind", .string p.kind.template.toWord),
    ("propertyType", .stringOrNull p.propertyType), ("isReadonly", .bool p.isReadonly)]

/-- The record of a member with the given JSON form. -/
def ofJson? (j : Json) : Option MemberPage := do
  let r ← Json.record? ["interfaceName", "memberName", "isExperimental", "groupName",
    "isStatic", "isConstructor", "isSecureContext", "parameters", "returnType", "pageKind",
    "propertyType", "isReadonly"] j
  return {
    interface := ← r.required? "interfaceName" Json.string?
    member := ← r.required? "memberName" Json.string?
    isExperimental := ← r.required? "isExperimental" Json.bool?
    group := ← r.nullable? "groupName" Json.string?
    isStatic := ← r.required? "isStatic" Json.bool?
    isConstructor := ← r.required? "isConstructor" Json.bool?
    isSecure := ← r.required? "isSecureContext" Json.bool?
    parameters := ← r.nullable? "parameters" (Json.list? ParameterEntry.ofJson?)
    returnType := ← r.nullable? "returnType" Json.string?
    kind := ← r.required? "pageKind" (Json.choice? PageKind.words)
    propertyType := ← r.nullable? "propertyType" Json.string?
    isReadonly := ← r.required? "isReadonly" Json.bool? }

end MemberPage

namespace EventPage

/-- The JSON form of the record of an event. -/
def toJson (p : EventPage) : Json :=
  .object [("interfaceName", .string p.interface), ("eventShortName", .string p.event),
    ("isExperimental", .bool p.isExperimental), ("groupName", .stringOrNull p.group),
    ("isSecureContext", .bool p.isSecure),
    ("eventInterfaceName", .stringOrNull p.eventInterface),
    ("parentEventInterfaceName", .stringOrNull p.parentEventInterface),
    ("eventProperties", .array (p.properties.map PropertyEntry.toJson))]

/-- The record of an event with the given JSON form. -/
def ofJson? (j : Json) : Option EventPage := do
  let r ← Json.record? ["interfaceName", "eventShortName", "isExperimental", "groupName",
    "isSecureContext", "eventInterfaceName", "parentEventInterfaceName", "eventProperties"] j
  return {
    interface := ← r.required? "interfaceName" Json.string?
    event := ← r.required? "eventShortName" Json.string?
    isExperimental := ← r.required? "isExperimental" Json.bool?
    group := ← r.nullable? "groupName" Json.string?
    isSecure := ← r.required? "isSecureContext" Json.bool?
    eventInterface := ← r.nullable? "eventInterfaceName" Json.string?
    parentEventInterface := ← r.nullable? "parentEventInterfaceName" Json.string?
    properties := ← r.required? "eventProperties" (Json.list? PropertyEntry.ofJson?) }

end EventPage

namespace Page

def template : Page → TemplateName
  | interface _ => .interface
  | member page => page.kind.template
  | event _ => .event

def toJson : Page → Json
  | interface page => page.toJson
  | member page => page.toJson
  | event page => page.toJson

end Page

end IdlDocs
