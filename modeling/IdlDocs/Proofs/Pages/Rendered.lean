import IdlDocs.Pages.Generation
import IdlDocs.Proofs.Templates.Renderers
import IdlDocs.Proofs.Templates.Safe

/-!
# Records always have a text

The built-in templates refer to the interface of a record, to its parent and to its members.
Such a reference can be made where the name of the interface is not empty, nor that of a
property in the list of an event.

* `Page.owner`, `Page.eventProperties`: what the templates refer to.
* `exists_renderPage`: **every such record has a text.**
-/

namespace IdlDocs

open Templates

namespace Page

/-- The interface that the page of a record is about. -/
def owner : Page → String
  | interface page => page.interface
  | member page => page.interface
  | event page => page.interface

def eventProperties : Page → List PropertyEntry
  | event page => page.properties
  | interface _ | member _ => []

end Page

theorem isName_of_isTrue {s : Option String} (h : isTrue (Json.stringOrNull s) = true) :
    IsName (Json.stringOrNull s) := by
  cases s with
  | none => cases h
  | some s => exact ⟨s, rfl, bne_iff_ne.1 h⟩

theorem value_mem_of_mem_itemFrames {items : List Json} {item : Frame}
    (h : item ∈ itemFrames (.array items)) : item.value ∈ items := by
  unfold itemFrames at h
  obtain ⟨⟨j, i⟩, hj, rfl⟩ := List.mem_map.1 h
  exact List.mem_of_getElem? (List.mem_zipIdx_iff_getElem?.1 hj)

theorem exists_mem_itemFrames {items : List Json} {j : Json} (h : j ∈ items) :
    ∃ item ∈ itemFrames (.array items), item.value = j := by
  obtain ⟨i, hi⟩ := List.mem_iff_getElem?.1 h
  have hmem : (j, i) ∈ items.zipIdx := List.mem_zipIdx_iff_getElem?.2 hi
  unfold itemFrames
  exact ⟨_, List.mem_map_of_mem hmem, rfl⟩

theorem isName_of_mem_properties {es : List PropertyEntry} (h : ∀ e ∈ es, e.name ≠ "")
    {item : Frame} (hitem : item ∈ itemFrames (.array (es.map PropertyEntry.toJson))) :
    IsName (member item.value "name") := by
  obtain ⟨e, he, hvalue⟩ := List.mem_map.1 (value_mem_of_mem_itemFrames hitem)
  rw [← hvalue]
  exact ⟨e.name, rfl, h e he⟩

theorem isName_of_null (h : Templates.isTrue Json.null = true) : IsName Json.null := by
  cases h

/-- **What the templates need is known of every such record.** -/
theorem pageKnown_holds {p : Page} (h : p.owner ≠ "")
    (hp : ∀ e ∈ p.eventProperties, e.name ≠ "") : pageKnown.Holds p.toJson := by
  cases p with
  | interface page =>
    refine ⟨?_, ?_, ?_, nofun, nofun⟩
    · exact List.forall_mem_singleton.2 ⟨page.interface, rfl, h⟩
    · exact List.forall_mem_cons.2 ⟨isName_of_isTrue (s := page.parent),
        List.forall_mem_cons.2 ⟨isName_of_null, List.forall_mem_singleton.2 isName_of_null⟩⟩
    · exact List.forall_mem_singleton.2 fun item hitem => absurd hitem List.not_mem_nil
  | member page =>
    refine ⟨?_, ?_, ?_, nofun, nofun⟩
    · exact List.forall_mem_singleton.2 ⟨page.interface, rfl, h⟩
    · exact List.forall_mem_cons.2 ⟨isName_of_null,
        List.forall_mem_cons.2 ⟨isName_of_null, List.forall_mem_singleton.2 isName_of_null⟩⟩
    · exact List.forall_mem_singleton.2 fun item hitem => absurd hitem List.not_mem_nil
  | event page =>
    refine ⟨?_, ?_, ?_, nofun, nofun⟩
    · exact List.forall_mem_singleton.2 ⟨page.interface, rfl, h⟩
    · exact List.forall_mem_cons.2 ⟨isName_of_null,
        List.forall_mem_cons.2 ⟨isName_of_isTrue (s := page.eventInterface),
          List.forall_mem_singleton.2 (isName_of_isTrue (s := page.parentEventInterface))⟩⟩
    · exact List.forall_mem_singleton.2 fun item hitem =>
        List.forall_mem_singleton.2 (isName_of_mem_properties hp hitem)

theorem renderPage_standard (p : Page) :
    renderPage .standard p =
      (render? (builtIn p.template) p.toJson).elim (.error .template) .ok :=
  Renderer.render_standard p.template p.toJson

/-- A record has a text if what makes its template safe is known of it. -/
theorem exists_renderPage_of_safe {p : Page} {k : Known}
    (ht : allSafe [k] (builtIn p.template) = true) (hk : k.Holds p.toJson) :
    ∃ text, renderPage .standard p = .ok text := by
  obtain ⟨text, htext⟩ := exists_render ht hk
  exact ⟨text, by rw [renderPage_standard, htext]; rfl⟩

/-- The text of a record is that of the pieces of its template. -/
theorem renderAll?_of_renderPage {p : Page} {text : String}
    (h : renderPage .standard p = .ok text) :
    renderAll? [⟨p.toJson, []⟩] (builtIn p.template) = some text.toList := by
  rw [renderPage_standard, render?] at h
  cases hr : renderAll? [⟨p.toJson, []⟩] (builtIn p.template) with
  | none => rw [hr] at h; cases h
  | some s =>
    rw [hr] at h
    cases h
    rw [String.toList_ofList]

/-- **Every such record has a text.** -/
theorem exists_renderPage {p : Page} (h : p.owner ≠ "")
    (hp : ∀ e ∈ p.eventProperties, e.name ≠ "") : ∃ text, renderPage .standard p = .ok text :=
  exists_renderPage_of_safe (builtIn_isSafe p.template) (pageKnown_holds h hp)

end IdlDocs
