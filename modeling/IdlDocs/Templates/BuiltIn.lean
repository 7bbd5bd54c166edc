/-!
# The built-in templates

The source texts of the templates of the pages: one for interfaces, three for members and one for
events.

* `TemplateName`: the names of the templates.
* `TemplateName.source`: **the source texts.**
-/

namespace IdlDocs.Templates

/-- The names of the templates. -/
inductive TemplateName
  | interface
  | property
  | method
  | constructor
  | event
deriving DecidableEq

namespace TemplateName

def all : List TemplateName := [interface, property, method, constructor, event]

/-- The word for a name. -/
def toWord : TemplateName → String
  | interface => "interface"
  | property => "property"
  | method => "method"
  | constructor => "constructor"
  | event => "event"

/-- The file that holds the template of a name. -/
def fileName (n : TemplateName) : String := n.toWord ++ ".md.hbs"

end TemplateName

/-! ## Source texts -/

/-- The text of lines, in which a tag is written between single angle quotes and not between double
braces. -/
def ofLines (ls : List String) : String :=
  String.ofList ((ls.flatMap (·.toList ++ ['\n'])).flatMap fun c =>
    if c == '‹' then ['\x7b', '\x7b'] else if c == '›' then ['\x7d', '\x7d'] else [c])

def interfaceSource : String :=
  ofLines [
    "---",
    "title: ‹interfaceName›",
    "slug: Web/API/‹interfaceName›",
    "page-type: web-api-interface",
    "‹#if isExperimental›",
    "status:",
    "  - experimental",
    "‹/if›",
    "browser-compat: api.‹interfaceName›",
    "---",
    "",
    "‹macro \"APIRef\" groupName›‹#if isSecureContext›‹macro \"SecureContext_Header\"›‹/if›‹#if isExperimental›‹macro \"SeeCompatTable\"›‹/if›",
    "",
    "The **`‹interfaceName›`** interface of the [‹groupName›](/en-US/docs/Web/API/‹groupName›) represents…",
    "",
    "‹#if parentName›",
    "‹macro \"InheritanceDiagram\"›",
    "‹/if›",
    "‹#if hasConstructor›",
    "",
    "## Constructor",
    "",
    "- ‹xref interfaceName interfaceName suffix=\"()\"›",
    "  - : Creates a new `‹interfaceName›` object.",
    "‹/if›",
    "‹#if staticProperties›",
    "",
    "## Static properties",
    "",
    "‹#each staticProperties›",
    "- ‹xref ../interfaceName name›‹#if isReadonly› ‹macro \"ReadOnlyInline\"›‹/if›‹#if isSecureContext› ‹macro \"SecureContext_Inline\"›‹/if›",
    "  - : ‹formattedType›",
    "‹/each›",
    "‹/if›",
    "",
    "## Instance properties",
    "",
    "‹#if parentName›",
    "_Also inherits properties from its parent, ‹xref parentName›._",
    "",
    "‹/if›",
    "‹#each properties›",
    "- ‹xref ../interfaceName name›‹#if isReadonly› ‹macro \"ReadOnlyInline\"›‹/if›‹#if isSecureContext› ‹macro \"SecureContext_Inline\"›‹/if›",
    "  - : ‹formattedType›",
    "‹else›",
    "_This interface has no properties of its own._",
    "‹/each›",
    "‹#if staticMethods›",
    "",
    "## Static methods",
    "",
    "‹#each staticMethods›",
    "- ‹xref ../interfaceName name suffix=\"()\"›‹#if isSecureContext› ‹macro \"SecureContext_Inline\"›‹/if›",
    "  - : …",
    "‹/each›",
    "‹/if›",
    "",
    "## Instance methods",
    "",
    "‹#if parentName›",
    "_Also inherits methods from its parent, ‹xref parentName›._",
    "",
    "‹/if›",
    "‹#each methods›",
    "- ‹xref ../interfaceName name suffix=\"()\"›‹#if isSecureContext› ‹macro \"SecureContext_Inline\"›‹/if›",
    "  - : …",
    "‹else›",
    "_This interface has no methods of its own._",
    "‹/each›",
    "‹#if eventNames›",
    "",
    "## Events",
    "",
    "‹#each eventNames›",
    "- [`‹this›`](/en-US/docs/Web/API/‹../interfaceName›/‹this›_event)",
    "  - : …",
    "‹/each›",
    "‹/if›",
    "",
    "## Examples",
    "",
    "## Specifications",
    "",
    "‹macro \"Specifications\"›",
    "",
    "## Browser compatibility",
    "",
    "‹macro \"Compat\"›",
    "",
    "## See also"]

def propertySource : String :=
  ofLines [
    "---",
    "title: \"‹interfaceName›: ‹memberName› ‹#if isStatic›static ‹/if›property\"",
    "short-title: ‹memberName›",
    "slug: Web/API/‹interfaceName›/‹memberName›",
    "page-type: web-api-‹#if isStatic›static‹else›instance‹/if›-property",
    "‹#if isExperimental›",
    "status:",
    "  - experimental",
    "‹/if›",
    "browser-compat: api.‹interfaceName›.‹memberName›",
    "---",
    "",
    "‹macro \"APIRef\" groupName›‹#if isSecureContext›‹macro \"SecureContext_Header\"›‹/if›‹#if isExperimental›‹macro \"SeeCompatTable\"›‹/if›",
    "",
    "The **`‹memberName›`** ‹#if isReadonly›read-only ‹/if›‹#if isStatic›static‹else›instance‹/if› property of the ‹xref interfaceName› interface…",
    "",
    "## Value",
    "",
    "‹#if propertyType›‹propertyType›‹else›…‹/if›",
    "",
    "## Examples",
    "",
    "## Specifications",
    "",
    "‹macro \"Specifications\"›",
    "",
    "## Browser compatibility",
    "",
    "‹macro \"Compat\"›",
    "",
    "## See also"]

def methodSource : String :=
  ofLines [
    "---",
    "title: \"‹interfaceName›: ‹memberName›() ‹#if isStatic›static ‹/if›method\"",
    "short-title: ‹memberName›()",
    "slug: Web/API/‹interfaceName›/‹memberName›",
    "page-type: web-api-‹#if isStatic›static‹else›instance‹/if›-method",
    "‹#if isExperimental›",
    "status:",
    "  - experimental",
    "‹/if›",
    "browser-compat: api.‹interfaceName›.‹memberName›",
    "---",
    "",
    "‹macro \"APIRef\" groupName›‹#if isSecureContext›‹macro \"SecureContext_Header\"›‹/if›‹#if isExperimental›‹macro \"SeeCompatTable\"›‹/if›",
    "",
    "The **`‹memberName›()`** method of the ‹xref interfaceName› interface…",
    "",
    "## Syntax",
    "",
    "```js-nolint",
    "‹memberName›(‹#each parameters›‹#unless @first›, ‹/unless›‹name›‹/each›)",
    "```",
    "",
    "### Parameters",
    "",
    "‹#each parameters›",
    "- `‹name›`‹#if optional› ‹macro \"optional_inline\"›‹/if›",
    "  - : ‹formattedType›",
    "‹else›",
    "None.",
    "‹/each›",
    "",
    "### Return value",
    "",
    "‹#if returnType›‹returnType›‹else›None (‹macro \"jsxref\" \"undefined\"›).‹/if›",
    "",
    "### Exceptions",
    "",
    "## Examples",
    "",
    "## Specifications",
    "",
    "‹macro \"Specifications\"›",
    "",
    "## Browser compatibility",
    "",
    "‹macro \"Compat\"›",
    "",
    "## See also"]

def constructorSource : String :=
  ofLines [
    "---",
    "title: \"‹interfaceName›: ‹interfaceName›() constructor\"",
    "short-title: ‹interfaceName›()",
    "slug: Web/API/‹interfaceName›/‹interfaceName›",
    "page-type: web-api-constructor",
    "‹#if isExperimental›",
    "status:",
    "  - experimental",
    "‹/if›",
    "browser-compat: api.‹interfaceName›.‹interfaceName›",
    "---",
    "",
    "‹macro \"APIRef\" groupName›‹#if isSecureContext›‹macro \"SecureContext_Header\"›‹/if›‹#if isExperimental›‹macro \"SeeCompatTable\"›‹/if›",
    "",
    "The **`‹interfaceName›()`** constructor creates a new ‹xref interfaceName› object.",
    "",
    "## Syntax",
    "",
    "```js-nolint",
    "new ‹interfaceName›(‹#each parameters›‹#unless @first›, ‹/unless›‹name›‹/each›)",
    "```",
    "",
    "### Parameters",
    "",
    "‹#each parameters›",
    "- `‹name›`‹#if optional› ‹macro \"optional_inline\"›‹/if›",
    "  - : ‹formattedType›",
    "‹else›",
    "None.",
    "‹/each›",
    "",
    "### Return value",
    "",
    "A new ‹xref interfaceName› object.",
    "",
    "## Examples",
    "",
    "## Specifications",
    "",
    "‹macro \"Specifications\"›",
    "",
    "## Browser compatibility",
    "",
    "‹macro \"Compat\"›",
    "",
    "## See also"]

def eventSource : String :=
  ofLines [
    "---",
    "title: \"‹interfaceName›: ‹eventShortName› event\"",
    "short-title: ‹eventShortName›",
    "slug: Web/API/‹interfaceName›/‹eventShortName›_event",
    "page-type: web-api-event",
    "‹#if isExperimental›",
    "status:",
    "  - experimental",
    "‹/if›",
    "browser-compat: api.‹interfaceName›.‹eventShortName›_event",
    "---",
    "",
    "‹macro \"APIRef\" groupName›‹#if isSecureContext›‹macro \"SecureContext_Header\"›‹/if›‹#if isExperimental›‹macro \"SeeCompatTable\"›‹/if›",
    "",
    "The **`‹eventShortName›`** event of the ‹xref interfaceName› interface is fired when…",
    "",
    "## Syntax",
    "",
    "Use the event name in methods like ‹xref \"EventTarget\" \"addEventListener\" suffix=\"()\"›, or set an event handler property.",
    "",
    "```js-nolint",
    "addEventListener(\"‹eventShortName›\", (event) => \x7b \x7d)",
    "",
    "on‹eventShortName› = (event) => \x7b \x7d",
    "```",
    "",
    "## Event type",
    "",
    "‹#if eventInterfaceName›An ‹xref eventInterfaceName›‹#if parentEventInterfaceName›. Inherits from ‹xref parentEventInterfaceName›‹/if›.‹else›A generic ‹xref \"Event\"›.‹/if›",
    "",
    "‹#if eventProperties›",
    "## Event properties",
    "",
    "‹#if parentEventInterfaceName›",
    "_This interface also inherits properties from its parent, ‹xref parentEventInterfaceName›._",
    "",
    "‹/if›",
    "‹#each eventProperties›",
    "- ‹xref ../eventInterfaceName name›‹#if isReadonly› ‹macro \"ReadOnlyInline\"›‹/if›",
    "  - : ‹formattedType›",
    "‹/each›",
    "‹/if›",
    "",
    "## Examples",
    "",
    "## Specifications",
    "",
    "‹macro \"Specifications\"›",
    "",
    "## Browser compatibility",
    "",
    "‹macro \"Compat\"›",
    "",
    "## See also"]

/-- The source text of a name. -/
def TemplateName.source : TemplateName → String
  | interface => interfaceSource
  | property => propertySource
  | method => methodSource
  | constructor => constructorSource
  | event => eventSource

end IdlDocs.Templates
