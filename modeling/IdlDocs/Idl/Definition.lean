import IdlDocs.Idl.TypeExpr

/-!
# Definitions

What a source text of the interface definition language defines, as far as
documentation shows it.  Extended attributes are kept by name; default values,
documentation comments and the attributes of types and fields are not kept.

A list of definitions that belong together is a set of **fragments**: the first
one is the main definition, the others extend it.

* `Fragments.main?`, `Fragments.mainInterface?`: the main definition.
* `Fragments.members`: the members of all definitions with members, in order.
* `Fragments.fields`, `Fragments.enumValues?`: the fields of all dictionaries, the
  values of the first enumeration.
-/

namespace IdlDocs.Idl

/-- An argument of an operation or a constructor. -/
structure Argument where
  name : String
  type : TypeExpr
  /-- It may be left out. -/
  optional : Bool := false
  /-- It stands for any number of arguments, `T... name`. -/
  variadic : Bool := false
  /-- The names of the extended attributes. -/
  attributes : List String := []

inductive MemberKind
  /-- An attribute. -/
  | attr
  /-- An operation: regular, static or special. -/
  | operation
  /-- A constructor operation. -/
  | constructor
  /-- A constant. -/
  | const
  /-- A declaration without a name of its own, such as `iterable` or `maplike`. -/
  | declaration
deriving DecidableEq

/-- What qualifies a member. -/
inductive Qualifier
  | plain
  | static
  | getter
  | setter
  | deleter
  | stringifier
  | inherit
deriving DecidableEq

/-- A member of an interface, a mixin or a namespace. -/
structure Member where
  kind : MemberKind
  /-- Special operations may have no name. -/
  name : Option String := none
  qualifier : Qualifier := .plain
  readonly : Bool := false
  /-- The type of an attribute or a constant, the return type of an operation. -/
  type : Option TypeExpr := none
  /-- The names of the extended attributes. -/
  attributes : List String := []
  arguments : List Argument := []

namespace Member

def ofAttribute (name : String) (type : TypeExpr) : Member :=
  { kind := .attr, name := some name, type := some type }

def ofOperation (name : String) (returns : TypeExpr) : Member :=
  { kind := .operation, name := some name, type := some returns }

def ofConstructor : Member := { kind := .constructor }

def ofConstant (name : String) (type : TypeExpr) : Member :=
  { kind := .const, name := some name, type := some type, readonly := true }

def ofDeclaration (keyword : String) : Member :=
  { kind := .declaration, name := some keyword, readonly := true }

/-- The name of a member, empty if it has none. -/
def nameOrEmpty (m : Member) : String := m.name.getD ""

end Member

/-- The kinds of definitions with members. -/
inductive InterfaceKind
  | interface
  | mixin
  | callbackInterface
  | namespaceObject
deriving DecidableEq

/-- A definition with members, or a partial definition of one. -/
structure Interface where
  name : String
  kind : InterfaceKind := .interface
  isPartial : Bool := false
  /-- The interface it inherits from. -/
  parent : Option String := none
  /-- The names of the extended attributes. -/
  attributes : List String := []
  members : List Member := []

/-- A field of a dictionary. -/
structure Field where
  name : String
  type : TypeExpr
  required : Bool := false

/-- A dictionary, or a partial definition of one. -/
structure Dictionary where
  name : String
  isPartial : Bool := false
  /-- The dictionary it inherits from. -/
  parent : Option String := none
  fields : List Field := []

/-- An enumeration, with its values in order. -/
structure Enumeration where
  name : String
  values : List String

/-- A definition at the top level of a source text. -/
inductive Definition
  /-- An interface, a mixin, a callback interface or a namespace. -/
  | interface (body : Interface)
  | dictionary (body : Dictionary)
  | enumeration (body : Enumeration)
  /-- Another name of a type, `typedef T name;`. -/
  | typedef (name : String) (type : TypeExpr)
  /-- A callback function, by what it returns. -/
  | callback (name : String) (returns : TypeExpr)
  /-- The statement that an interface includes a mixin. -/
  | includes (target mixin : String)

namespace Definition

def name : Definition → String
  | interface body => body.name
  | dictionary body => body.name
  | enumeration body => body.name
  | typedef name _ => name
  | callback name _ => name
  | includes target _ => target

def interface? : Definition → Option Interface
  | interface body => some body
  | _ => none

def members? (d : Definition) : Option (List Member) := d.interface?.map (·.members)

/-- The fields of a dictionary, none for any other definition. -/
def fields : Definition → List Field
  | dictionary body => body.fields
  | _ => []

def enumValues? : Definition → Option (List String)
  | enumeration body => some body.values
  | _ => none

end Definition

/-- Definitions that belong together, the main one first. -/
abbrev Fragments := List Definition

namespace Fragments

def main? (fs : Fragments) : Option Definition := fs.head?

def mainInterface? (fs : Fragments) : Option Interface := main? fs |>.bind Definition.interface?

def members (fs : Fragments) : List Member := (fs.filterMap Definition.members?).flatten

/-- The fields of all dictionaries, in order. -/
def fields (fs : Fragments) : List Field := fs.flatMap Definition.fields

def enumValues? (fs : Fragments) : Option (List String) := fs.findSome? Definition.enumValues?

end Fragments

end IdlDocs.Idl
