import IdlDocs.Proofs.Interfaces.Overview
import IdlDocs.Proofs.Pages.Sections

/-!
# Which records have a text

The templates make two kinds of references.  Those with two parts can always be made, as there is
a point between the parts; those with one part can be made if it is not empty.  The page of an
interface has only references with two parts, and one to a parent that is known not to be empty.
The other pages refer to their interface alone, and that of an event refers to properties alone
where the interface of the event is not known.

* `exists_renderPage_interface`: the record of an interface always has a text.
* `Page.IsReferable`: the references of the page of a record can be made.
* `exists_renderPage_iff`: **a record has a text exactly if they can be made.**
* `Page.listedNames`, `exists_renderPage_of_named`: **a record with names that are not empty has
  a text.**
-/

namespace IdlDocs

open Templates

/-! ## Records that have a text -/

def interfaceKnown : Known where
  texts := ["parentName"]
  strings := ["interfaceName"]
  stringLists := ["staticProperties", "properties", "staticMethods", "methods"].map
    fun key => (key, ["name"])

/-- What is known about the value that the page of an event is made from, where the interface of
the event is known. -/
def eventKnown : Known where
  names := ["interfaceName"]
  texts := ["eventInterfaceName", "parentEventInterfaceName"]
  strings := ["eventInterfaceName"]
  stringLists := [("eventProperties", ["name"])]

theorem interfaceTemplate_isSafe : allSafe [interfaceKnown] interfaceTemplate = true := by
  decide

/-- The template of an event is safe whatever the properties are called, where the interface of
the event is known. -/
theorem eventTemplate_isSafe : allSafe [eventKnown] eventTemplate = true := by decide

theorem isText_of_mem_entries {α : Type} {toJson : α → Json}
    (hname : ∀ a, IsText (member (toJson a) "name")) {as : Option (List α)} {item : Frame}
    (hitem : item ∈ itemFrames (listOrNull toJson as)) : IsText (member item.value "name") := by
  cases as with
  | none => exact absurd hitem List.not_mem_nil
  | some as =>
    obtain ⟨a, -, hvalue⟩ := List.mem_map.1 (value_mem_of_mem_itemFrames hitem)
    rw [← hvalue]
    exact hname a

theorem isText_property (e : PropertyEntry) : IsText (member e.toJson "name") := ⟨e.name, rfl⟩

theorem isText_method (e : MethodEntry) : IsText (member e.toJson "name") := ⟨e.name, rfl⟩

theorem interfaceKnown_holds (page : InterfacePage) : interfaceKnown.Holds page.toJson where
  names := nofun
  texts := List.forall_mem_singleton.2 (isName_of_isTrue (s := page.parent))
  lists := nofun
  strings := List.forall_mem_singleton.2 ⟨page.interface, rfl⟩
  stringLists := by
    refine List.forall_mem_cons.2 ⟨?_, List.forall_mem_cons.2 ⟨?_, List.forall_mem_cons.2
      ⟨?_, List.forall_mem_singleton.2 ?_⟩⟩⟩
    · exact fun item hitem => List.forall_mem_singleton.2
        (isText_of_mem_entries isText_property hitem)
    · exact fun item hitem => List.forall_mem_singleton.2
        (isText_of_mem_entries isText_property hitem)
    · exact fun item hitem => List.forall_mem_singleton.2
        (isText_of_mem_entries isText_method hitem)
    · exact fun item hitem => List.forall_mem_singleton.2
        (isText_of_mem_entries isText_method hitem)

theorem eventKnown_holds {page : EventPage} (h : page.interface ≠ "") {name : String}
    (hname : page.eventInterface = some name) : eventKnown.Holds page.toJson where
  names := List.forall_mem_singleton.2 ⟨page.interface, rfl, h⟩
  texts := List.forall_mem_cons.2 ⟨isName_of_isTrue (s := page.eventInterface),
    List.forall_mem_singleton.2 (isName_of_isTrue (s := page.parentEventInterface))⟩
  lists := nofun
  strings := by
    refine List.forall_mem_singleton.2 ⟨name, ?_⟩
    change Json.stringOrNull page.eventInterface = _
    rw [hname]
    rfl
  stringLists := List.forall_mem_singleton.2 fun item hitem => List.forall_mem_singleton.2 <| by
    have hitem : item ∈ itemFrames (listOrNull PropertyEntry.toJson (some page.properties)) := hitem
    exact isText_of_mem_entries isText_property hitem

/-- **The record of an interface always has a text.** -/
theorem exists_renderPage_interface (page : InterfacePage) :
    ∃ text, renderPage .standard (.interface page) = .ok text := by
  have hholds : interfaceKnown.Holds (Page.interface page).toJson := interfaceKnown_holds page
  exact exists_renderPage_of_safe interfaceTemplate_isSafe hholds

/-! ## Records that have none -/

theorem exists_of_mem_renderAll? {frames : List Frame} {ps : List Piece} {text : List Char}
    (h : renderAll? frames ps = some text) {p : Piece} (hp : p ∈ ps) :
    ∃ s, p.render? frames = some s := by
  induction ps generalizing text with
  | nil => cases hp
  | cons q ps ih =>
    obtain ⟨s, t, hs, ht, -⟩ := renderAll?_cons_eq_some.1 h
    rcases List.mem_cons.1 hp with rfl | hp
    · exact ⟨s, hs⟩
    · exact ih ht hp

/-- A reference to the empty text cannot be made. -/
theorem render_refer_owner {data : Json} (h : member data "interfaceName" = .string "") :
    (refer [valueOf "interfaceName"]).render? [⟨data, []⟩] = none := by
  have hvalue : (valueOf "interfaceName").eval [⟨data, []⟩] = .string "" := h
  unfold refer
  rw [Piece.render?, List.map_singleton, hvalue]
  rfl

/-- Where the interface of the event is not known, a property is referred to alone. -/
theorem render_refer_property {data : Json} {item : Frame}
    (h : member data "eventInterfaceName" = .null) (hitem : member item.value "name" = .string "") :
    (refer [outerKey "eventInterfaceName", valueOf "name"]).render? [item, ⟨data, []⟩] = none := by
  have howner : (outerKey "eventInterfaceName").eval [item, ⟨data, []⟩] = .null := h
  have hname : (valueOf "name").eval [item, ⟨data, []⟩] = .string "" := hitem
  unfold refer
  rw [Piece.render?, List.map_cons, List.map_singleton, howner, hname]
  rfl

/-- The pages of members and events refer to their interface. -/
theorem refer_mem_builtIn {n : TemplateName} (h : n ≠ .interface) :
    refer [valueOf "interfaceName"] ∈ builtIn n := by
  cases n with
  | interface => exact absurd rfl h
  | property | method | constructor | event =>
    simp [builtIn, propertyTemplate, methodTemplate, constructorTemplate, eventTemplate]

theorem interface_ne_empty_of_renderPage {p : Page} {text : String}
    (h : renderPage .standard p = .ok text) (ht : p.template ≠ .interface) {name : String}
    (hname : member p.toJson "interfaceName" = .string name) : name ≠ "" := by
  rintro rfl
  obtain ⟨s, hs⟩ := exists_of_mem_renderAll? (renderAll?_of_renderPage h) (refer_mem_builtIn ht)
  rw [render_refer_owner hname] at hs
  cases hs

/-- An event of which the interface is not known has no property without a name. -/
theorem name_ne_empty_of_renderPage {page : EventPage} {text : String}
    (h : renderPage .standard (.event page) = .ok text) (hi : page.eventInterface = none) :
    ∀ e ∈ page.properties, e.name ≠ "" := by
  intro e he hname
  have hpieces : renderAll? [⟨page.toJson, []⟩] eventTemplate = some text.toList :=
    renderAll?_of_renderPage h
  rw [eventTemplate_eq] at hpieces
  obtain ⟨front, t, -, ht, -⟩ := renderAll?_append_eq_some.1 hpieces
  obtain ⟨part, rest, hpart, -, -⟩ := renderAll?_cons_eq_some.1 ht
  have htrue : isTrue ((valueOf "eventProperties").eval [⟨page.toJson, []⟩]) = true := by
    have hvalue : (valueOf "eventProperties").eval [⟨page.toJson, []⟩] =
        listOrNull PropertyEntry.toJson (some page.properties) := rfl
    rw [hvalue, isTrue_listOrNull]
    simpa using List.ne_nil_of_mem he
  unfold ifTrue at hpart
  rw [Piece.render?, if_pos htrue] at hpart
  obtain ⟨list, hlist⟩ := exists_of_mem_renderAll? hpart
    (List.mem_cons_of_mem _ (List.mem_append_right _ List.mem_cons_self))
  rw [Piece.render?] at hlist
  obtain ⟨item, hitem, hvalue⟩ := exists_mem_itemFrames (List.mem_map_of_mem he)
  split at hlist
  · next hnone =>
    have hempty : itemFrames (.array (page.properties.map PropertyEntry.toJson)) = [] := hnone
    rw [hempty] at hitem
    cases hitem
  · obtain ⟨texts, htexts, -⟩ := Option.map_eq_some_iff.1 hlist
    obtain ⟨s, hs⟩ := (forall_of_mapM htexts).1 item hitem
    obtain ⟨reference, href⟩ := exists_of_mem_renderAll? hs
      (List.mem_cons_of_mem _ List.mem_cons_self)
    have howner : member page.toJson "eventInterfaceName" = .null := by
      change Json.stringOrNull page.eventInterface = _
      rw [hi]
      rfl
    have hitemName : member item.value "name" = .string "" := by
      rw [hvalue, ← hname]
      rfl
    rw [render_refer_property howner hitemName] at href
    cases href

/-! ## Which records have a text -/

def Page.IsReferable : Page → Prop
  | interface _ => True
  | member page => page.interface ≠ ""
  | event page => page.interface ≠ "" ∧
    (page.eventInterface = none → ∀ e ∈ page.properties, e.name ≠ "")

/-- **A record has a text exactly if the references of its page can be made.** -/
theorem exists_renderPage_iff (p : Page) :
    (∃ text, renderPage .standard p = .ok text) ↔ p.IsReferable := by
  cases p with
  | interface page => exact ⟨fun _ => trivial, fun _ => exists_renderPage_interface page⟩
  | member page =>
    constructor
    · rintro ⟨text, h⟩
      have ht : (Page.member page).template ≠ .interface := by
        change page.kind.template ≠ .interface
        cases page.kind <;> decide
      exact interface_ne_empty_of_renderPage h ht rfl
    · exact fun h => exists_renderPage h fun e he => absurd he List.not_mem_nil
  | event page =>
    constructor
    · rintro ⟨text, h⟩
      exact ⟨interface_ne_empty_of_renderPage h nofun rfl, name_ne_empty_of_renderPage h⟩
    · rintro ⟨h, hnames⟩
      cases hi : page.eventInterface with
      | none => exact exists_renderPage h (hnames hi)
      | some name =>
        have hholds : eventKnown.Holds (Page.event page).toJson := eventKnown_holds h hi
        exact exists_renderPage_of_safe eventTemplate_isSafe hholds

/-! ## Records with names -/

def MemberGroups.names (g : MemberGroups) : List String :=
  ((g.propertyList true ++ g.propertyList false).map (·.name)) ++
    (g.methodList true ++ g.methodList false).map (·.name)

def Page.listedNames : Page → List String
  | interface page => page.members.names ++ page.parentMembers.names ++ page.events
  | member page => (page.parameters.getD []).map (·.name)
  | event page => page.properties.map (·.name)

/-- **A record with names that are not empty has a text.**  The name of its interface is not
empty, nor is one of those that it lists; all that is absent or without entries may be so. -/
theorem exists_renderPage_of_named {p : Page} (h : p.owner ≠ "")
    (hnames : ∀ name ∈ p.listedNames, name ≠ "") : ∃ text, renderPage .standard p = .ok text := by
  rw [exists_renderPage_iff]
  cases p with
  | interface page => exact trivial
  | member page => exact h
  | event page => exact ⟨h, fun _ e he => hnames e.name (List.mem_map_of_mem he)⟩

theorem exists_renderPage_of_named_event :
    ∃ (p : Page) (text : String), p.owner ≠ "" ∧ (∀ name ∈ p.listedNames, name ≠ "") ∧
      renderPage .standard p = .ok text := by
  have howner : (Page.event ⟨"A", "end", false, none, false, none, none,
      [⟨"p", "", false, false⟩]⟩).owner ≠ "" := by decide
  have hnames : ∀ name ∈ (Page.event ⟨"A", "end", false, none, false, none, none,
      [⟨"p", "", false, false⟩]⟩).listedNames, name ≠ "" := by decide
  obtain ⟨text, htext⟩ := exists_renderPage_of_named howner hnames
  exact ⟨_, text, howner, hnames, htext⟩

end IdlDocs
