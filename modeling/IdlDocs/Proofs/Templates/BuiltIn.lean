import IdlDocs.Templates.Basic
import IdlDocs.Templates.BuiltIn

/-!
# The pieces of the built-in templates

What the source texts of the built-in templates are read as.  The templates share the lines about
experimental features, the calls of macros in front, the entries of lists and the sections at the
end.

* `builtIn`: **the pieces of the template of a name.**
-/

namespace IdlDocs.Templates

/-! ## Parts of templates -/

def valueOf (k : String) : Expr := .path 0 [k]

def outerKey (k : String) : Expr := .path 1 [k]

/-- A fixed text as an argument. -/
def word (s : String) : Expr := .literal (.string s)

def field (k : String) : Piece := .value (valueOf k)

def callMacro (name : String) (args : List Expr) : Piece := .call "macro" (word name :: args) []

def refer (args : List Expr) : Piece := .call "xref" args []

def referCall (args : List Expr) : Piece := .call "xref" args [("suffix", word "()")]

def ifTrue (k : String) (part : List Piece) : Piece := .choice (valueOf k) part []

def staticOrInstance : Piece := .choice (valueOf "isStatic") [.text "static"] [.text "instance"]

def status : Piece := ifTrue "isExperimental" [.text "status:\n  - experimental\n"]

def banner : List Piece :=
  [callMacro "APIRef" [valueOf "groupName"],
    ifTrue "isSecureContext" [callMacro "SecureContext_Header" []],
    ifTrue "isExperimental" [callMacro "SeeCompatTable" []]]

def ending : List Piece :=
  [callMacro "Specifications" [],
    .text "\n\n## Browser compatibility\n\n",
    callMacro "Compat" [],
    .text "\n\n## See also\n"]

def readonlyMark : Piece := ifTrue "isReadonly" [.text " ", callMacro "ReadOnlyInline" []]

def secureMark : Piece := ifTrue "isSecureContext" [.text " ", callMacro "SecureContext_Inline" []]

def typeLine : List Piece := [.text "\n  - : ", field "formattedType", .text "\n"]

def propertyItem : List Piece :=
  [.text "- ", refer [outerKey "interfaceName", valueOf "name"], readonlyMark, secureMark] ++
    typeLine

def methodItem : List Piece :=
  [.text "- ", referCall [outerKey "interfaceName", valueOf "name"], secureMark,
    .text "\n  - : …\n"]

def inherited (what : String) : Piece :=
  ifTrue "parentName" [.text s!"_Also inherits {what} from its parent, ",
    refer [valueOf "parentName"], .text "._\n\n"]

def parameterNames : Piece :=
  .repeat (valueOf "parameters") [.choice (.mark "first") [] [.text ", "], field "name"] []

def parameterList : Piece :=
  .repeat (valueOf "parameters")
    ([.text "- `", field "name", .text "`",
      ifTrue "optional" [.text " ", callMacro "optional_inline" []]] ++ typeLine)
    [.text "None.\n"]

/-! ## The templates -/

def interfaceTemplate : Template :=
  [.text "---\ntitle: ", field "interfaceName", .text "\nslug: Web/API/", field "interfaceName",
    .text "\npage-type: web-api-interface\n", status, .text "browser-compat: api.",
    field "interfaceName", .text "\n---\n\n"] ++ banner ++
  [.text "\n\nThe **`", field "interfaceName", .text "`** interface of the [", field "groupName",
    .text "](/en-US/docs/Web/API/", field "groupName", .text ") represents…\n\n",
    ifTrue "parentName" [callMacro "InheritanceDiagram" [], .text "\n"],
    ifTrue "hasConstructor" [.text "\n## Constructor\n\n- ",
      referCall [valueOf "interfaceName", valueOf "interfaceName"],
      .text "\n  - : Creates a new `", field "interfaceName", .text "` object.\n"],
    ifTrue "staticProperties" [.text "\n## Static properties\n\n",
      .repeat (valueOf "staticProperties") propertyItem []],
    .text "\n## Instance properties\n\n", inherited "properties",
    .repeat (valueOf "properties") propertyItem
      [.text "_This interface has no properties of its own._\n"],
    ifTrue "staticMethods" [.text "\n## Static methods\n\n",
      .repeat (valueOf "staticMethods") methodItem []],
    .text "\n## Instance methods\n\n", inherited "methods",
    .repeat (valueOf "methods") methodItem
      [.text "_This interface has no methods of its own._\n"],
    ifTrue "eventNames" [.text "\n## Events\n\n",
      .repeat (valueOf "eventNames") [.text "- [`", .value (.path 0 []),
        .text "`](/en-US/docs/Web/API/", .value (outerKey "interfaceName"), .text "/",
        .value (.path 0 []), .text "_event)\n  - : …\n"] []],
    .text "\n## Examples\n\n## Specifications\n\n"] ++ ending

def propertyTemplate : Template :=
  [.text "---\ntitle: \"", field "interfaceName", .text ": ", field "memberName", .text " ",
    ifTrue "isStatic" [.text "static "], .text "property\"\nshort-title: ", field "memberName",
    .text "\nslug: Web/API/", field "interfaceName", .text "/", field "memberName",
    .text "\npage-type: web-api-", staticOrInstance, .text "-property\n", status,
    .text "browser-compat: api.", field "interfaceName", .text ".", field "memberName",
    .text "\n---\n\n"] ++ banner ++
  [.text "\n\nThe **`", field "memberName", .text "`** ",
    ifTrue "isReadonly" [.text "read-only "], staticOrInstance, .text " property of the ",
    refer [valueOf "interfaceName"], .text " interface…\n\n## Value\n\n",
    .choice (valueOf "propertyType") [field "propertyType"] [.text "…"],
    .text "\n\n## Examples\n\n## Specifications\n\n"] ++ ending

def methodTemplate : Template :=
  [.text "---\ntitle: \"", field "interfaceName", .text ": ", field "memberName", .text "() ",
    ifTrue "isStatic" [.text "static "], .text "method\"\nshort-title: ", field "memberName",
    .text "()\nslug: Web/API/", field "interfaceName", .text "/", field "memberName",
    .text "\npage-type: web-api-", staticOrInstance, .text "-method\n", status,
    .text "browser-compat: api.", field "interfaceName", .text ".", field "memberName",
    .text "\n---\n\n"] ++ banner ++
  [.text "\n\nThe **`", field "memberName", .text "()`** method of the ",
    refer [valueOf "interfaceName"], .text " interface…\n\n## Syntax\n\n```js-nolint\n",
    field "memberName", .text "(", parameterNames, .text ")\n```\n\n### Parameters\n\n",
    parameterList, .text "\n### Return value\n\n",
    .choice (valueOf "returnType") [field "returnType"]
      [.text "None (", callMacro "jsxref" [word "undefined"], .text ")."],
    .text "\n\n### Exceptions\n\n## Examples\n\n## Specifications\n\n"] ++ ending

def constructorTemplate : Template :=
  [.text "---\ntitle: \"", field "interfaceName", .text ": ", field "interfaceName",
    .text "() constructor\"\nshort-title: ", field "interfaceName",
    .text "()\nslug: Web/API/", field "interfaceName", .text "/", field "interfaceName",
    .text "\npage-type: web-api-constructor\n", status,
    .text "browser-compat: api.", field "interfaceName", .text ".", field "interfaceName",
    .text "\n---\n\n"] ++ banner ++
  [.text "\n\nThe **`", field "interfaceName", .text "()`** constructor creates a new ",
    refer [valueOf "interfaceName"], .text " object.\n\n## Syntax\n\n```js-nolint\nnew ",
    field "interfaceName", .text "(", parameterNames, .text ")\n```\n\n### Parameters\n\n",
    parameterList, .text "\n### Return value\n\nA new ", refer [valueOf "interfaceName"],
    .text " object.\n\n## Examples\n\n## Specifications\n\n"] ++ ending

def eventTemplate : Template :=
  [.text "---\ntitle: \"", field "interfaceName", .text ": ", field "eventShortName",
    .text " event\"\nshort-title: ", field "eventShortName",
    .text "\nslug: Web/API/", field "interfaceName", .text "/", field "eventShortName",
    .text "_event\npage-type: web-api-event\n", status,
    .text "browser-compat: api.", field "interfaceName", .text ".", field "eventShortName",
    .text "_event\n---\n\n"] ++ banner ++
  [.text "\n\nThe **`", field "eventShortName", .text "`** event of the ",
    refer [valueOf "interfaceName"],
    .text (" interface is fired when…\n\n## Syntax\n\n" ++
      "Use the event name in methods like "),
    referCall [word "EventTarget", word "addEventListener"],
    .text ", or set an event handler property.\n\n```js-nolint\naddEventListener(\"",
    field "eventShortName", .text "\", (event) => \x7b \x7d)\n\non", field "eventShortName",
    .text " = (event) => \x7b \x7d\n```\n\n## Event type\n\n",
    .choice (valueOf "eventInterfaceName")
      [.text "An ", refer [valueOf "eventInterfaceName"],
        ifTrue "parentEventInterfaceName" [.text ". Inherits from ",
          refer [valueOf "parentEventInterfaceName"]],
        .text "."]
      [.text "A generic ", refer [word "Event"], .text "."],
    .text "\n\n",
    ifTrue "eventProperties" [.text "## Event properties\n\n",
      ifTrue "parentEventInterfaceName"
        [.text "_This interface also inherits properties from its parent, ",
          refer [valueOf "parentEventInterfaceName"], .text "._\n\n"],
      .repeat (valueOf "eventProperties")
        ([.text "- ", refer [outerKey "eventInterfaceName", valueOf "name"], readonlyMark] ++
          typeLine)
        []],
    .text "\n## Examples\n\n## Specifications\n\n"] ++ ending

/-- The template of a name. -/
def builtIn : TemplateName → Template
  | .interface => interfaceTemplate
  | .property => propertyTemplate
  | .method => methodTemplate
  | .constructor => constructorTemplate
  | .event => eventTemplate

end IdlDocs.Templates
