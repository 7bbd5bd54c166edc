import IdlDocs.Idl.Definition
import IdlDocs.Text.Cut

/-!
# Tests on members

What kind of documentation a member gets.  Constants are reached through the
interface object, so they count as static, and as attributes.  An **event handler**
is an attribute of the type `EventHandler` whose name is `on` and the name of an
event.

* `Member.isStatic`, `Member.isAttribute`, `Member.isOperation`,
  `Member.isConstructor`, `Member.isEventHandler`, `Member.isNamed`,
  `Member.isSecure`: the tests.
* `Member.eventName?`: the event of a handler.
-/

namespace IdlDocs.Idl

def secureContext : String := "SecureContext"

def handlerType : String := "EventHandler"

def handlerLead : String := "on"

namespace Member

/-- Static members and constants. -/
def isStatic (m : Member) : Bool := m.qualifier == .static || m.kind == .const

def isAttribute (m : Member) : Bool := m.kind == .attr || m.kind == .const

def isOperation (m : Member) : Bool := m.kind == .operation

def isConstructor (m : Member) : Bool := m.kind == .constructor

def isNamed (m : Member) : Bool := m.nameOrEmpty != ""

def hasName (name : String) (m : Member) : Bool := m.name == some name

/-- Members that are available in secure contexts only. -/
def isSecure (m : Member) : Bool := m.attributes.contains secureContext

def eventName? (m : Member) : Option String := do
  return String.ofList (← Text.dropLead? handlerLead.toList (← m.name).toList)

/-- Event handlers.  A union of which the type of event handlers is a member does not
count. -/
def isEventHandler (m : Member) : Bool :=
  m.kind == .attr && m.eventName?.isSome && m.type.bind TypeExpr.name? == some handlerType

end Member

/-- Interfaces that are available in secure contexts only. -/
def Interface.isSecure (i : Interface) : Bool := i.attributes.contains secureContext

end IdlDocs.Idl
