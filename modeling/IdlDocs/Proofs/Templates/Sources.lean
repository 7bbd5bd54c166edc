import IdlDocs.Proofs.Templates.BuiltIn
import IdlDocs.Proofs.Templates.Reading.Tags
import IdlDocs.Templates.Engine
import Mathlib.Data.List.Forall2

/-!
# The source texts of the built-in templates

Each built-in template is written down as a source text, with the tags that open, divide and close
a part in lines of their own.  Reading the text takes these lines away and gives the template.

* `CutSource`, `TemplateName.cut`: a source text that is cut at its tags.
* `source_eq`: the source text of a name is made of these parts.
* `parse?_source`: **reading the source text of a name gives its built-in template.**
* `hasInclusion_source`: **the built-in templates include none.**
-/

namespace IdlDocs.Templates

/-- A source text that is cut at its tags: the text in front, and each tag with the text behind
it. -/
structure CutSource where
  first : String
  rows : List (Tag × String)

def CutSource.text (s : CutSource) : String :=
  String.ofList (s.first.toList ++ rowsSource (s.rows.map fun x => (x.1, x.2.toList)))

/-! ## Parts of sources -/

def shown (e : Expr) : Tag := .fill { head := e }

def opening (block : String) (e : Expr) : Tag := .openBlock { head := valueOf block, args := [e] }

def macroTag (args : List Expr) : Tag := .fill { head := valueOf "macro", args }

def pageTag (args : List Expr) : Tag := .fill { head := valueOf "xref", args }

def pageCallTag (args : List Expr) : Tag :=
  .fill { head := valueOf "xref", args, named := [("suffix", word "()")] }

/-- The lines about an experimental feature. -/
def statusRows : List (Tag × String) :=
  [(opening "if" (valueOf "isExperimental"), "\nstatus:\n  - experimental\n"),
    (.closeBlock "if", "\nbrowser-compat: api.")]

/-- The calls of macros in front of the text. -/
def bannerRows : List (Tag × String) :=
  [(macroTag [word "APIRef", valueOf "groupName"], ""),
    (opening "if" (valueOf "isSecureContext"), ""), (macroTag [word "SecureContext_Header"], ""),
    (.closeBlock "if", ""),
    (opening "if" (valueOf "isExperimental"), ""), (macroTag [word "SeeCompatTable"], ""),
    (.closeBlock "if", "\n\nThe **`")]

def endingRows : List (Tag × String) :=
  [(macroTag [word "Specifications"], "\n\n## Browser compatibility\n\n"),
    (macroTag [word "Compat"], "\n\n## See also\n")]

def readonlyRows : List (Tag × String) :=
  [(opening "if" (valueOf "isReadonly"), " "), (macroTag [word "ReadOnlyInline"], "")]

/-- The mark of a member that is available in secure contexts only. -/
def secureRows : List (Tag × String) :=
  [(opening "if" (valueOf "isSecureContext"), " "), (macroTag [word "SecureContext_Inline"], "")]

def propertyRows (list : String) : List (Tag × String) :=
  [(opening "each" (valueOf list), "\n- "),
    (pageTag [outerKey "interfaceName", valueOf "name"], "")] ++ readonlyRows ++
  [(.closeBlock "if", "")] ++ secureRows ++
  [(.closeBlock "if", "\n  - : "), (shown (valueOf "formattedType"), "\n")]

def methodRows (list : String) : List (Tag × String) :=
  [(opening "each" (valueOf list), "\n- "),
    (pageCallTag [outerKey "interfaceName", valueOf "name"], "")] ++ secureRows ++
  [(.closeBlock "if", "\n  - : …\n")]

/-- The note that a parent has more of something. -/
def inheritedRows (note : String) : List (Tag × String) :=
  [(opening "if" (valueOf "parentName"), note), (pageTag [valueOf "parentName"], "._\n\n"),
    (.closeBlock "if", "\n")]

def staticRows : List (Tag × String) :=
  [(opening "if" (valueOf "isStatic"), "static"), (.divide, "instance")]

def parameterRows : List (Tag × String) :=
  [(opening "each" (valueOf "parameters"), ""), (opening "unless" (.mark "first"), ", "),
    (.closeBlock "unless", ""), (shown (valueOf "name"), ""),
    (.closeBlock "each", ")\n```\n\n### Parameters\n\n"),
    (opening "each" (valueOf "parameters"), "\n- `"), (shown (valueOf "name"), "`"),
    (opening "if" (valueOf "optional"), " "), (macroTag [word "optional_inline"], ""),
    (.closeBlock "if", "\n  - : "), (shown (valueOf "formattedType"), "\n"),
    (.divide, "\nNone.\n")]

/-! ## The sources -/

def interfaceCut : CutSource where
  first := "---\ntitle: "
  rows :=
    [(shown (valueOf "interfaceName"), "\nslug: Web/API/"),
      (shown (valueOf "interfaceName"), "\npage-type: web-api-interface\n")] ++ statusRows ++
    [(shown (valueOf "interfaceName"), "\n---\n\n")] ++ bannerRows ++
    [(shown (valueOf "interfaceName"), "`** interface of the ["),
      (shown (valueOf "groupName"), "](/en-US/docs/Web/API/"),
      (shown (valueOf "groupName"), ") represents…\n\n"),
      (opening "if" (valueOf "parentName"), "\n"), (macroTag [word "InheritanceDiagram"], "\n"),
      (.closeBlock "if", "\n"),
      (opening "if" (valueOf "hasConstructor"), "\n\n## Constructor\n\n- "),
      (pageCallTag [valueOf "interfaceName", valueOf "interfaceName"],
        "\n  - : Creates a new `"),
      (shown (valueOf "interfaceName"), "` object.\n"), (.closeBlock "if", "\n"),
      (opening "if" (valueOf "staticProperties"), "\n\n## Static properties\n\n")] ++
    propertyRows "staticProperties" ++
    [(.closeBlock "each", "\n"), (.closeBlock "if", "\n\n## Instance properties\n\n")] ++
    inheritedRows "\n_Also inherits properties from its parent, " ++ propertyRows "properties" ++
    [(.divide, "\n_This interface has no properties of its own._\n"), (.closeBlock "each", "\n"),
      (opening "if" (valueOf "staticMethods"), "\n\n## Static methods\n\n")] ++
    methodRows "staticMethods" ++
    [(.closeBlock "each", "\n"), (.closeBlock "if", "\n\n## Instance methods\n\n")] ++
    inheritedRows "\n_Also inherits methods from its parent, " ++ methodRows "methods" ++
    [(.divide, "\n_This interface has no methods of its own._\n"), (.closeBlock "each", "\n"),
      (opening "if" (valueOf "eventNames"), "\n\n## Events\n\n"),
      (opening "each" (valueOf "eventNames"), "\n- [`"),
      (shown (.path 0 []), "`](/en-US/docs/Web/API/"), (shown (outerKey "interfaceName"), "/"),
      (shown (.path 0 []), "_event)\n  - : …\n"), (.closeBlock "each", "\n"),
      (.closeBlock "if", "\n\n## Examples\n\n## Specifications\n\n")] ++ endingRows

def propertyCut : CutSource where
  first := "---\ntitle: \""
  rows :=
    [(shown (valueOf "interfaceName"), ": "), (shown (valueOf "memberName"), " "),
      (opening "if" (valueOf "isStatic"), "static "),
      (.closeBlock "if", "property\"\nshort-title: "),
      (shown (valueOf "memberName"), "\nslug: Web/API/"), (shown (valueOf "interfaceName"), "/"),
      (shown (valueOf "memberName"), "\npage-type: web-api-")] ++ staticRows ++
    [(.closeBlock "if", "-property\n")] ++ statusRows ++
    [(shown (valueOf "interfaceName"), "."), (shown (valueOf "memberName"), "\n---\n\n")] ++
    bannerRows ++
    [(shown (valueOf "memberName"), "`** "), (opening "if" (valueOf "isReadonly"), "read-only "),
      (.closeBlock "if", "")] ++ staticRows ++
    [(.closeBlock "if", " property of the "),
      (pageTag [valueOf "interfaceName"], " interface…\n\n## Value\n\n"),
      (opening "if" (valueOf "propertyType"), ""), (shown (valueOf "propertyType"), ""),
      (.divide, "…"), (.closeBlock "if", "\n\n## Examples\n\n## Specifications\n\n")] ++ endingRows

def methodCut : CutSource where
  first := "---\ntitle: \""
  rows :=
    [(shown (valueOf "interfaceName"), ": "), (shown (valueOf "memberName"), "() "),
      (opening "if" (valueOf "isStatic"), "static "),
      (.closeBlock "if", "method\"\nshort-title: "),
      (shown (valueOf "memberName"), "()\nslug: Web/API/"), (shown (valueOf "interfaceName"), "/"),
      (shown (valueOf "memberName"), "\npage-type: web-api-")] ++ staticRows ++
    [(.closeBlock "if", "-method\n")] ++ statusRows ++
    [(shown (valueOf "interfaceName"), "."), (shown (valueOf "memberName"), "\n---\n\n")] ++
    bannerRows ++
    [(shown (valueOf "memberName"), "()`** method of the "),
      (pageTag [valueOf "interfaceName"], " interface…\n\n## Syntax\n\n```js-nolint\n"),
      (shown (valueOf "memberName"), "(")] ++ parameterRows ++
    [(.closeBlock "each", "\n\n### Return value\n\n"),
      (opening "if" (valueOf "returnType"), ""), (shown (valueOf "returnType"), ""),
      (.divide, "None ("), (macroTag [word "jsxref", word "undefined"], ")."),
      (.closeBlock "if", "\n\n### Exceptions\n\n## Examples\n\n## Specifications\n\n")] ++
    endingRows

def constructorCut : CutSource where
  first := "---\ntitle: \""
  rows :=
    [(shown (valueOf "interfaceName"), ": "),
      (shown (valueOf "interfaceName"), "() constructor\"\nshort-title: "),
      (shown (valueOf "interfaceName"), "()\nslug: Web/API/"),
      (shown (valueOf "interfaceName"), "/"),
      (shown (valueOf "interfaceName"), "\npage-type: web-api-constructor\n")] ++ statusRows ++
    [(shown (valueOf "interfaceName"), "."), (shown (valueOf "interfaceName"), "\n---\n\n")] ++
    bannerRows ++
    [(shown (valueOf "interfaceName"), "()`** constructor creates a new "),
      (pageTag [valueOf "interfaceName"], " object.\n\n## Syntax\n\n```js-nolint\nnew "),
      (shown (valueOf "interfaceName"), "(")] ++ parameterRows ++
    [(.closeBlock "each", "\n\n### Return value\n\nA new "),
      (pageTag [valueOf "interfaceName"], " object.\n\n## Examples\n\n## Specifications\n\n")] ++
    endingRows

def eventCut : CutSource where
  first := "---\ntitle: \""
  rows :=
    [(shown (valueOf "interfaceName"), ": "),
      (shown (valueOf "eventShortName"), " event\"\nshort-title: "),
      (shown (valueOf "eventShortName"), "\nslug: Web/API/"),
      (shown (valueOf "interfaceName"), "/"),
      (shown (valueOf "eventShortName"), "_event\npage-type: web-api-event\n")] ++ statusRows ++
    [(shown (valueOf "interfaceName"), "."),
      (shown (valueOf "eventShortName"), "_event\n---\n\n")] ++ bannerRows ++
    [(shown (valueOf "eventShortName"), "`** event of the "),
      (pageTag [valueOf "interfaceName"],
        " interface is fired when…\n\n## Syntax\n\nUse the event name in methods like "),
      (pageCallTag [word "EventTarget", word "addEventListener"],
        ", or set an event handler property.\n\n```js-nolint\naddEventListener(\""),
      (shown (valueOf "eventShortName"), "\", (event) => \x7b \x7d)\n\non"),
      (shown (valueOf "eventShortName"), " = (event) => \x7b \x7d\n```\n\n## Event type\n\n"),
      (opening "if" (valueOf "eventInterfaceName"), "An "),
      (pageTag [valueOf "eventInterfaceName"], ""),
      (opening "if" (valueOf "parentEventInterfaceName"), ". Inherits from "),
      (pageTag [valueOf "parentEventInterfaceName"], ""), (.closeBlock "if", "."),
      (.divide, "A generic "), (pageTag [word "Event"], "."), (.closeBlock "if", "\n\n"),
      (opening "if" (valueOf "eventProperties"), "\n## Event properties\n\n"),
      (opening "if" (valueOf "parentEventInterfaceName"),
        "\n_This interface also inherits properties from its parent, "),
      (pageTag [valueOf "parentEventInterfaceName"], "._\n\n"), (.closeBlock "if", "\n"),
      (opening "each" (valueOf "eventProperties"), "\n- "),
      (pageTag [outerKey "eventInterfaceName", valueOf "name"], "")] ++ readonlyRows ++
    [(.closeBlock "if", "\n  - : "), (shown (valueOf "formattedType"), "\n"),
      (.closeBlock "each", "\n"),
      (.closeBlock "if", "\n\n## Examples\n\n## Specifications\n\n")] ++ endingRows

def TemplateName.cut : TemplateName → CutSource
  | interface => interfaceCut
  | property => propertyCut
  | method => methodCut
  | constructor => constructorCut
  | event => eventCut

/-! ## Reading the sources -/

/-- Rows as their characters.  A literal is related to its characters by being made of them, since
taking the characters of long literals is slow. -/
inductive Spells : List (Tag × String) → List (Tag × List Char) → Prop
  | nil : Spells [] []
  | cons {t : Tag} {s : List Char} {rows : List (Tag × String)} {spelled : List (Tag × List Char)} :
      Spells rows spelled → Spells ((t, String.ofList s) :: rows) ((t, s) :: spelled)

theorem Spells.map_eq {rows : List (Tag × String)} {spelled : List (Tag × List Char)}
    (h : Spells rows spelled) : rows.map (fun x => (x.1, x.2.toList)) = spelled := by
  induction h with
  | nil => rfl
  | cons _ ih => rw [List.map_cons, ih, String.toList_ofList]

theorem CutSource.parse?_of_spells {s : CutSource} {t : Template} {first : List Char}
    {rows : List (Tag × List Char)} (hfirst : s.first = String.ofList first)
    (hspells : Spells s.rows rows) (hplain : isPlainText first = true)
    (hrows : (rows.all fun x => x.1.isWritten && isPlainText x.2) = true)
    (ht : assemble (textPiece (trimLines true first first rows).1).reverse []
      (trimLines true first first rows).2 = some t) : parse? s.text = some t := by
  have hrows : ∀ x ∈ rows, x.1.isWritten = true ∧ isPlainText x.2 = true := by
    simpa using hrows
  rw [CutSource.text, hfirst, hspells.map_eq, String.toList_ofList, parse?_rows hplain hrows, ht]

/-- A text with double braces in the place of single angle quotes. -/
def withBraces (cs : List Char) : List Char :=
  cs.flatMap fun c =>
    if c == '‹' then ['\x7b', '\x7b'] else if c == '›' then ['\x7d', '\x7d'] else [c]

theorem ofLines_of_spells {ls : List String} {spelled : List (List Char)}
    (h : List.Forall₂ (fun l cs => l = String.ofList cs) ls spelled) :
    ofLines ls = String.ofList (withBraces (spelled.flatMap (· ++ ['\n']))) := by
  have hlines : ls.flatMap (fun l => l.toList ++ ['\n']) = spelled.flatMap (· ++ ['\n']) := by
    induction h with
    | nil => rfl
    | cons hl _ ih => rw [List.flatMap_cons, List.flatMap_cons, ih, hl, String.toList_ofList]
  unfold ofLines
  rw [hlines]
  rfl

theorem CutSource.text_of_spells {s : CutSource} {ls : List String} {spelled : List (List Char)}
    {first : List Char} {rows : List (Tag × List Char)} (hfirst : s.first = String.ofList first)
    (hspells : Spells s.rows rows)
    (hlines : List.Forall₂ (fun l cs => l = String.ofList cs) ls spelled)
    (he : withBraces (spelled.flatMap (· ++ ['\n'])) = first ++ rowsSource rows) :
    ofLines ls = s.text := by
  rw [ofLines_of_spells hlines, he, CutSource.text, hfirst, hspells.map_eq, String.toList_ofList]

/-- **The source text of a name is made of its parts.** -/
theorem source_eq (n : TemplateName) : n.source = n.cut.text := by
  cases n
  all_goals
    apply CutSource.text_of_spells
    case hfirst => rfl
    case hspells => repeat' constructor
    case hlines => repeat' constructor
    case he => decide +kernel

/-- The built-in templates include none. -/
theorem hasInclusion_source (n : TemplateName) : hasInclusion n.source.toList = false := by
  have hplain {ls : List String} {spelled : List (List Char)}
      (hlines : List.Forall₂ (fun l cs => l = String.ofList cs) ls spelled)
      (h : hasInclusion (withBraces (spelled.flatMap (· ++ ['\n']))) = false) :
      hasInclusion (ofLines ls).toList = false := by
    rw [ofLines_of_spells hlines, String.toList_ofList]
    exact h
  cases n
  all_goals
    apply hplain
    case hlines => repeat' constructor
    case h => decide +kernel

set_option maxRecDepth 1000 in
/-- **Reading the source text of a name gives its built-in template.** -/
theorem parse?_source (n : TemplateName) : parse? n.source = some (builtIn n) := by
  rw [source_eq]
  cases n
  all_goals
    apply CutSource.parse?_of_spells
    case hfirst => rfl
    case hspells => repeat' constructor
    case hplain => rfl
    case hrows => decide +kernel
    case ht => rfl

end IdlDocs.Templates
