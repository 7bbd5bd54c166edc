import IdlDocs.Json.Writer
import IdlDocs.Registry.Library

/-!
# A sample of documents

A small set of documents and tables that belong together: nodes and elements with their
event handlers, some events, of which one has no document, and some dictionaries and
enumerations, of which one dictionary holds itself.

* `Sample.documents`, `Sample.groups`, `Sample.names`, `Sample.events`: the documents and
  the tables.
* `Sample.entries`: **the texts by key**, as a source in memory holds them.
* `Sample.loaded`: the registry that has loaded all of it.
-/

namespace IdlDocs.Sample

def lines (l : List String) : String := "\n".intercalate l

def eventTargetText : String :=
  lines [
    "[Exposed=*]",
    "interface EventTarget \x7b",
    "  constructor();",
    "  undefined addEventListener(DOMString type, EventListener? callback, optional (AddEventListenerOptions or boolean) options = \x7b\x7d);",
    "  undefined removeEventListener(DOMString type, EventListener? callback, optional (EventListenerOptions or boolean) options = \x7b\x7d);",
    "  boolean dispatchEvent(Event event);",
    "\x7d;"]

def nodeText : String :=
  lines [
    "[Exposed=Window]",
    "interface Node : EventTarget \x7b",
    "  const unsigned short ELEMENT_NODE = 1;",
    "  readonly attribute DOMString nodeName;",
    "  readonly attribute USVString baseURI;",
    "  readonly attribute Node? parentNode;",
    "  [CEReactions] attribute DOMString? textContent;",
    "  Node getRootNode(optional GetRootNodeOptions options = \x7b\x7d);",
    "  [CEReactions] Node appendChild(Node node);",
    "  [CEReactions] undefined normalize();",
    "  [CEReactions] Node appendChild(Node node, optional boolean deep = false);",
    "\x7d;"]

def elementText : String :=
  lines [
    "[Exposed=Window]",
    "interface Element : Node \x7b",
    "  readonly attribute DOMString tagName;",
    "  [CEReactions, Reflect] attribute DOMString id;",
    "\x7d;"]

def htmlElementText : String :=
  lines [
    "[Exposed=Window]",
    "interface HTMLElement : Element \x7b",
    "  [HTMLConstructor] constructor();",
    "  [CEReactions, Reflect] attribute DOMString title;",
    "  [CEReactions, Reflect] attribute boolean hidden;",
    "  undefined click();",
    "  attribute EventHandler ontoggle;",
    "\x7d;"]

def globalHandlersText : String :=
  lines [
    "interface mixin GlobalEventHandlers \x7b",
    "  attribute EventHandler onclick;",
    "  attribute EventHandler oninput;",
    "\x7d;"]

def uiEventText : String :=
  lines [
    "[Exposed=Window]",
    "interface UIEvent : Event \x7b",
    "  constructor(DOMString type, optional UIEventInit eventInitDict = \x7b\x7d);",
    "  readonly attribute long detail;",
    "\x7d;"]

def mouseEventText : String :=
  lines [
    "[Exposed=Window]",
    "interface MouseEvent : UIEvent \x7b",
    "  constructor(DOMString type, optional MouseEventInit eventInitDict = \x7b\x7d);",
    "  const unsigned short BUTTON_PRIMARY = 0;",
    "  readonly attribute short button;",
    "  readonly attribute boolean ctrlKey;",
    "  [SecureContext] boolean getModifierState(DOMString keyArg);",
    "\x7d;"]

def sensorText : String :=
  lines [
    "[SecureContext, Exposed=(DedicatedWorker, Window)]",
    "interface Sensor : EventTarget \x7b",
    "  constructor();",
    "  readonly attribute boolean activated;",
    "  undefined start();",
    "  undefined stop();",
    "  attribute EventHandler onreading;",
    "\x7d;"]

/-- A document without extensions, mixins and parent. -/
def document (name : String) (kind : DocumentKind) (text : String) : Document :=
  { name := some name, kind, text }

/-- The mixin of event handlers, as elements include it. -/
def globalHandlers : IncludedMixin := ⟨some "GlobalEventHandlers", globalHandlersText⟩

/-- The documents, by name. -/
def documents : List (String × Document) :=
  [
    ("EventTarget", document "EventTarget" .interface eventTargetText),
    ("Node", { document "Node" .interface nodeText with
      parent := some ⟨"EventTarget", some eventTargetText⟩ }),
    ("Element", { document "Element" .interface elementText with
      mixins := [globalHandlers], parent := some ⟨"Node", some nodeText⟩ }),
    ("HTMLElement", { document "HTMLElement" .interface htmlElementText with
      mixins := [globalHandlers], parent := some ⟨"Element", some elementText⟩ }),
    ("UIEvent", document "UIEvent" .interface uiEventText),
    ("MouseEvent", { document "MouseEvent" .interface mouseEventText with
      parent := some ⟨"UIEvent", some uiEventText⟩ }),
    ("Sensor", { document "Sensor" .interface sensorText with
      parent := some ⟨"EventTarget", some eventTargetText⟩ }),
    ("GlobalEventHandlers", document "GlobalEventHandlers" .interfaceMixin globalHandlersText),
    ("GetRootNodeOptions", document "GetRootNodeOptions" .dictionary
      (lines [
      "dictionary GetRootNodeOptions \x7b",
      "  boolean composed = false;",
      "  ShadowScopeInit scope;",
      "\x7d;"])),
    ("ShadowScopeInit", document "ShadowScopeInit" .dictionary
      (lines [
      "dictionary ShadowScopeInit \x7b",
      "  required ShadowRootMode mode;",
      "\x7d;"])),
    ("ShadowRootMode", document "ShadowRootMode" .enumeration
      "enum ShadowRootMode \x7b \"open\", \"closed\" \x7d;"),
    ("ScrollBehavior", document "ScrollBehavior" .enumeration
      "enum ScrollBehavior \x7b \"smooth\", \"instant\", \"auto\" \x7d;"),
    ("TreeNodeInit", document "TreeNodeInit" .dictionary
      (lines [
      "dictionary TreeNodeInit \x7b",
      "  required DOMString label;",
      "  sequence<TreeNodeInit> children;",
      "\x7d;"])),
    ("MouseEventInit", document "MouseEventInit" .dictionary
      (lines [
      "dictionary MouseEventInit : EventModifierInit \x7b",
      "  short button = 0;",
      "  unsigned short buttons = 0;",
      "\x7d;"]))]

/-- The table of groups. -/
def groups : GroupTable :=
  [("DOM", ["EventTarget", "Node", "Element"]), ("HTML DOM", ["HTMLElement"]),
    ("UI Events", ["UIEvent", "MouseEvent"]), ("Sensor API", ["Sensor"])]

/-- The table of events. -/
def events : EventTable :=
  [⟨"click", some "MouseEvent", ["Element"]⟩, ⟨"toggle", some "Event", ["HTMLElement"]⟩,
    ⟨"reading", some "SensorReadingEvent", ["Sensor"]⟩]

def documentKey (name : String) : String := s!"idlnamesparsed/{name}.json"

def names : NameIndex :=
  documents.map fun (name, _) => (name, ⟨some s!"idlnames/{name}.idl", some (documentKey name)⟩)

/-- The texts of the tables and the documents, by key. -/
def entries : List (String × String) :=
  [("GroupData.json", (Json.array [groupsToJson groups]).compact),
    ("idlnames.json", (namesToJson names).compact),
    ("events.json", (eventsToJson events).compact)] ++
  documents.map fun (name, d) => (documentKey name, d.toJson.compact)

def loaded : Registry where
  kept := some { groups, names, events }
  documents := documents

end IdlDocs.Sample
