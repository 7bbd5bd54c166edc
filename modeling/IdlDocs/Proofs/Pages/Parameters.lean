import IdlDocs.Proofs.Pages.Rendered
import IdlDocs.Proofs.Templates.Fills

/-!
# Methods and constructors with their parameters

The page of a method or a constructor has a line with its syntax, a list of its parameters and
what it returns.  Its text is written out here with what the record holds in its places, so that
nothing of the record is escaped, read as a template or left out, whichever characters it has.

* `MemberPage.parameterNames`, `MemberPage.parameterList`: the parameters in the syntax and in
  their list.
* `MemberPage.methodText`, `MemberPage.constructorText`: the texts of the pages.
* `renderPage_of_callable`: **the pages have these texts.**
-/

namespace IdlDocs

open Templates

/-! ## Texts of pages -/

/-- The list item of a parameter. -/
def ParameterEntry.text (e : ParameterEntry) : String :=
  "- `" ++ e.name ++ "`" ++ (if e.optional then " " ++ macroCall "optional_inline" [] else "") ++
    "\n  - : " ++ e.type ++ "\n"

def endingText : String :=
  macroCall "Specifications" [] ++ "\n\n## Browser compatibility\n\n" ++ macroCall "Compat" [] ++
    "\n\n## See also\n"

namespace MemberPage

variable (p : MemberPage)

/-- The parameters of a record, none where they are absent. -/
def listed : List ParameterEntry := p.parameters.getD []

def parameterNames : String := ", ".intercalate (p.listed.map (·.name))

/-- The list items of the parameters in their order. -/
def parameterList : String :=
  if p.listed = [] then "None.\n" else String.join (p.listed.map ParameterEntry.text)

def returnText : String :=
  if p.returnType.getD "" ≠ "" then p.returnType.getD ""
  else "None (" ++ macroCall "jsxref" ["undefined"] ++ ")."

def statusText : String := if p.isExperimental then "status:\n  - experimental\n" else ""

def bannerText : String :=
  macroCall "APIRef" p.group.toList ++
    ((if p.isSecure then macroCall "SecureContext_Header" [] else "") ++
      (if p.isExperimental then macroCall "SeeCompatTable" [] else ""))

def methodText : String :=
  "---\ntitle: \"" ++ p.interface ++ ": " ++ p.member ++ "() " ++
    (if p.isStatic then "static " else "") ++ "method\"\nshort-title: " ++ p.member ++
  "()\nslug: Web/API/" ++ p.interface ++ "/" ++ p.member ++
  "\npage-type: web-api-" ++ (if p.isStatic then "static" else "instance") ++ "-method\n" ++
  p.statusText ++
  "browser-compat: api." ++ p.interface ++ "." ++ p.member ++
  "\n---\n\n" ++ p.bannerText ++
  "\n\nThe **`" ++ p.member ++ "()`** method of the " ++ pageReference p.interface ++
  " interface…\n\n## Syntax\n\n```js-nolint\n" ++
    p.member ++ "(" ++ p.parameterNames ++
  ")\n```\n\n### Parameters\n\n" ++
    p.parameterList ++
  "\n### Return value\n\n" ++
    p.returnText ++
  "\n\n### Exceptions\n\n## Examples\n\n## Specifications\n\n" ++ endingText

def constructorText : String :=
  "---\ntitle: \"" ++ p.interface ++ ": " ++ p.interface ++
    "() constructor\"\nshort-title: " ++ p.interface ++
  "()\nslug: Web/API/" ++ p.interface ++ "/" ++ p.interface ++
  "\npage-type: web-api-constructor\n" ++
  p.statusText ++
  "browser-compat: api." ++ p.interface ++ "." ++ p.interface ++
  "\n---\n\n" ++ p.bannerText ++
  "\n\nThe **`" ++ p.interface ++ "()`** constructor creates a new " ++
    pageReference p.interface ++
  " object.\n\n## Syntax\n\n```js-nolint\nnew " ++
    p.interface ++ "(" ++ p.parameterNames ++
  ")\n```\n\n### Parameters\n\n" ++
    p.parameterList ++
  "\n### Return value\n\nA new " ++
    pageReference p.interface ++
  " object.\n\n## Examples\n\n## Specifications\n\n" ++ endingText

end MemberPage

/-! ## Lists of parameters -/

section Parameters

variable {frames : List Frame} {list : Expr} {as : List ParameterEntry}

/-- What the templates read of a parameter in the frame of its item. -/
structure ParameterEntry.Shown (e : ParameterEntry) (isFirst : Bool) (frames : List Frame) :
    Prop where
  name : (valueOf "name").eval frames = .string e.name
  type : (valueOf "formattedType").eval frames = .string e.type
  optional : Templates.isTrue ((valueOf "optional").eval frames) = e.optional
  first : Templates.isTrue ((Expr.mark "first").eval frames) = isFirst

theorem shown_of_isItem {e : ParameterEntry} {isFirst : Bool} {item : Frame}
    (h : IsItem ParameterEntry.toJson isFirst item e) : e.Shown isFirst (item :: frames) where
  name := eval_valueOf h.value _
  type := eval_valueOf h.value _
  optional := by
    rw [eval_valueOf h.value]
    rfl
  first := by rw [eval_first h.first, isTrue_bool]

variable
  (hlist : itemFrames (list.eval frames) = itemFrames (.array (as.map ParameterEntry.toJson)))

include hlist

theorem fills_parameterNames : Fills frames
    [.repeat list [.choice (.mark "first") [] [.text ", "], field "name"] []]
    (", ".intercalate (as.map (·.name))) := by
  rw [← eachText_separated]
  refine .each hlist (fun isFirst e item hitem => ?_) .nil
  have hshown : e.Shown isFirst (item :: frames) := shown_of_isItem hitem
  rw [Fills.cons_iff (.choice hshown.first .nil (.text ", "))]
  exact .value hshown.name

/-- An item has the mark of an optional parameter just where it is optional. -/
theorem fills_parameterList : Fills frames
    [.repeat list
      ([.text "- `", field "name", .text "`",
        ifTrue "optional" [.text " ", callMacro "optional_inline" []]] ++ typeLine)
      [.text "None.\n"]]
    (eachText (fun _ => ParameterEntry.text) "None.\n" as) := by
  refine .each hlist (fun isFirst e item hitem => ?_) (.text _)
  have hshown : e.Shown isFirst (item :: frames) := shown_of_isItem hitem
  have hmark : Fills (item :: frames) [.text " ", callMacro "optional_inline" []]
      (" " ++ macroCall "optional_inline" []) := by
    rw [Fills.cons_iff (.text _)]
    exact .plainMacro _
  simp only [ParameterEntry.text, typeLine, field, ifTrue, String.append_assoc, List.cons_append,
    List.nil_append, Fills.cons_iff, Fills.text, Fills.value hshown.name, Fills.value hshown.type,
    Fills.choice hshown.optional hmark .nil]

end Parameters

/-! ## Pages -/

/-- What the templates of methods and constructors read of a record. -/
structure MemberPage.Shown (p : MemberPage) (frames : List Frame) : Prop where
  interface : (valueOf "interfaceName").eval frames = .string p.interface
  member : (valueOf "memberName").eval frames = .string p.member
  group : (valueOf "groupName").eval frames = Json.stringOrNull p.group
  returnType : (valueOf "returnType").eval frames = Json.stringOrNull p.returnType
  isStatic : Templates.isTrue ((valueOf "isStatic").eval frames) = p.isStatic
  isExperimental : Templates.isTrue ((valueOf "isExperimental").eval frames) = p.isExperimental
  isSecure : Templates.isTrue ((valueOf "isSecureContext").eval frames) = p.isSecure
  parameters : itemFrames ((valueOf "parameters").eval frames) =
    itemFrames (.array (p.listed.map ParameterEntry.toJson))

theorem MemberPage.shown (p : MemberPage) : p.Shown [⟨p.toJson, []⟩] where
  interface := rfl
  member := rfl
  group := rfl
  returnType := rfl
  isStatic := rfl
  isExperimental := rfl
  isSecure := rfl
  parameters := by
    change itemFrames (listOrNull ParameterEntry.toJson p.parameters) = _
    unfold MemberPage.listed
    cases p.parameters <;> rfl

namespace MemberPage.Shown

variable {p : MemberPage} {frames : List Frame} (h : p.Shown frames)

include h

theorem fills_names : Fills frames [Templates.parameterNames] p.parameterNames :=
  fills_parameterNames h.parameters

theorem fills_list : Fills frames [Templates.parameterList] p.parameterList := by
  have hlist := fills_parameterList h.parameters
  unfold MemberPage.parameterList
  split
  · next hnone =>
    rw [hnone] at hlist
    exact hlist
  · next hsome =>
    rw [eachText_const _ hsome] at hlist
    exact hlist

theorem fills_group :
    Fills frames [callMacro "APIRef" [valueOf "groupName"]] (macroCall "APIRef" p.group.toList) :=
  .callMacro (by rw [List.map_singleton, h.group, argumentTexts_stringOrNull])

theorem fills_return : Fills frames
    [.choice (valueOf "returnType") [.value (valueOf "returnType")]
      [.text "None (", callMacro "jsxref" [word "undefined"], .text ")."]] p.returnText := by
  have hundefined : Fills frames [callMacro "jsxref" [word "undefined"]]
      (macroCall "jsxref" ["undefined"]) := .callMacro rfl
  have hnone : Fills frames [.text "None (", callMacro "jsxref" [word "undefined"], .text ")."]
      ("None (" ++ macroCall "jsxref" ["undefined"] ++ ").") := by
    rw [String.append_assoc, Fills.cons_iff (.text _), Fills.cons_iff hundefined]
    exact .text _
  have htrue : Templates.isTrue ((valueOf "returnType").eval frames) =
      decide (p.returnType.getD "" ≠ "") := by rw [h.returnType, isTrue_stringOrNull]
  have hchoice := Fills.choice htrue (.valueOrNull h.returnType) hnone
  simp only [decide_eq_true_eq] at hchoice
  exact hchoice

/-- The text of a method is taken apart piece by piece. -/
theorem fills_methodTemplate (hi : p.interface ≠ "") :
    Fills frames methodTemplate p.methodText := by
  unfold methodText statusText bannerText endingText
  simp only [methodTemplate, status, banner, ending, field, ifTrue, staticOrInstance,
    String.append_assoc, List.cons_append, List.nil_append, Fills.cons_iff, Fills.text, Fills.nil,
    Fills.plainMacro, Fills.value h.interface, Fills.value h.member, Fills.choice h.isStatic,
    Fills.choice h.isExperimental, Fills.choice h.isSecure, Fills.refer h.interface hi,
    h.fills_group, h.fills_names, h.fills_list, h.fills_return]

theorem fills_constructorTemplate (hi : p.interface ≠ "") :
    Fills frames constructorTemplate p.constructorText := by
  unfold constructorText statusText bannerText endingText
  simp only [constructorTemplate, status, banner, ending, field, ifTrue,
    String.append_assoc, List.cons_append, List.nil_append, Fills.cons_iff, Fills.text, Fills.nil,
    Fills.plainMacro, Fills.value h.interface, Fills.choice h.isExperimental,
    Fills.choice h.isSecure, Fills.refer h.interface hi, h.fills_group, h.fills_names,
    h.fills_list]

end MemberPage.Shown

/-- The page of a record has the text of the pieces of its template. -/
theorem renderPage_of_fills {p : Page} {text : String}
    (h : Fills [⟨p.toJson, []⟩] (builtIn p.template) text) :
    renderPage .standard p = .ok text := by
  unfold Fills at h
  rw [renderPage_standard, render?, h, Option.map_some, String.ofList_toList]
  rfl

theorem MemberPage.parameterList_eq_none_iff (p : MemberPage) :
    p.parameterList = "None.\n" ↔ p.listed = [] := by
  unfold MemberPage.parameterList
  constructor
  · intro h
    by_contra hne
    rw [if_neg hne] at h
    obtain ⟨e, es, hlisted⟩ := List.exists_cons_of_ne_nil hne
    have hlist := congrArg (fun s => s.toList.head?) h
    simp only [hlisted, List.map_cons, String.join_cons, ParameterEntry.text,
      String.toList_append] at hlist
    cases hlist
  · intro hnone
    rw [if_pos hnone]

/-- **The pages of methods and constructors show exactly their parameters.**  What the record
holds stands in the text as it is. -/
theorem renderPage_of_callable (p : MemberPage) (hi : p.interface ≠ "") :
    (p.kind = .method → renderPage .standard (.member p) = .ok p.methodText) ∧
      (p.kind = .constructor → renderPage .standard (.member p) = .ok p.constructorText) ∧
      (p.parameterList = "None.\n" ↔ p.listed = []) := by
  refine ⟨fun hkind => renderPage_of_fills ?_, fun hkind => renderPage_of_fills ?_,
    p.parameterList_eq_none_iff⟩
  · have htemplate : (Page.member p).template = .method := congrArg PageKind.template hkind
    rw [htemplate]
    exact p.shown.fills_methodTemplate hi
  · have htemplate : (Page.member p).template = .constructor := congrArg PageKind.template hkind
    rw [htemplate]
    exact p.shown.fills_constructorTemplate hi

/-- A method with texts that look like parts of a template. -/
def bracedMethod : MemberPage where
  interface := "Store"
  member := "put\"&\""
  isExperimental := false
  group := none
  isStatic := false
  isConstructor := false
  isSecure := false
  parameters :=
    some [⟨"\x7b\x7bname\x7d\x7d", "<b>", false⟩, ⟨"`x`", "\x7b\x7b/each\x7d\x7d", true⟩]
  returnType := some ""
  kind := .method
  propertyType := none
  isReadonly := false

theorem renderPage_of_callable_braced : bracedMethod.interface ≠ "" ∧
    renderPage .standard (.member bracedMethod) = .ok bracedMethod.methodText ∧
    bracedMethod.parameterNames = "\x7b\x7bname\x7d\x7d, `x`" ∧
    bracedMethod.parameterList = "- `\x7b\x7bname\x7d\x7d`\n  - : <b>\n" ++
      "- ``x`` \x7b\x7boptional_inline\x7d\x7d\n  - : \x7b\x7b/each\x7d\x7d\n" ∧
    bracedMethod.returnText = "None (\x7b\x7bjsxref(\"undefined\")\x7d\x7d)." := by
  have hi : bracedMethod.interface ≠ "" := by decide
  exact ⟨hi, (renderPage_of_callable bracedMethod hi).1 rfl, by decide +kernel, by decide +kernel,
    by decide +kernel⟩

end IdlDocs
