import IdlDocs.Idl.Equality
import IdlDocs.Proofs.Interfaces.Agreement
import IdlDocs.Proofs.Interfaces.Events
import IdlDocs.Proofs.Members.Extraction

/-!
# The interface of an event and its own page

The page of an event shows the properties of the interface of the event, and so does the page of
this interface.  The first one takes the attributes that are not static as they are declared.
The second one leaves out the event handlers among them, and sorts the others.

* `perm_plainAttributes`: the attributes that are not static, with and without event handlers.
* `perm_eventPropertiesOf`: **the properties of an event are those of its interface and its event
  handlers.**
* `parent_of_overview`: the parent of an overview is that of its main definition.
* `event_agrees_with_overview`: an event that is looked up, and the overview of its interface.
-/

namespace IdlDocs

open Idl

variable {l : Library} {r s : Registry} {fs : Fragments}

/-! ## Attributes that are not static -/

def plainHandlers (fs : Fragments) : List Member :=
  selected fs [Member.isEventHandler, Test.not Member.isStatic]

/-- **The attributes that are not static are those that are no event handlers, and the event
handlers.** -/
theorem perm_plainAttributes (fs : Fragments) :
    (selected fs [Member.isAttribute, Test.not Member.isStatic]).Perm
      (selected fs (propertyTests false) ++ plainHandlers fs) := by
  have hothers : selected fs (propertyTests false) =
      (selected fs [Member.isAttribute, Test.not Member.isStatic]).filter fun m =>
        !m.isEventHandler := by
    refine (selected_tests_append fs [_, _] [_]).trans (List.filter_congr fun m _ => ?_)
    simp [Test.not]
  have hhandlers : plainHandlers fs =
      (selected fs [Member.isAttribute, Test.not Member.isStatic]).filter
        Member.isEventHandler := by
    rw [plainHandlers, selected_eq, selected_eq, List.filter_filter]
    refine List.filter_congr fun m _ => ?_
    cases hm : m.isEventHandler with
    | false => simp [hm]
    | true => simp [hm, isAttribute_of_isEventHandler hm]
  rw [hothers, hhandlers]
  exact (List.filter_append_perm _ _).symm.trans List.perm_append_comm

section Found

variable {properties : List PropertyEntry} (h : eventPropertiesOf l r fs = some properties)

include h

/-- **The properties of an event are those that the page of its interface lists, and its event
handlers.** -/
theorem perm_eventPropertiesOf {g : MemberGroups} (hg : foundAt l r (memberGroups fs) = some g) :
    ∃ handlers, (plainHandlers fs).mapM (fun m => foundAt l r (propertyEntry m)) = some handlers ∧
      properties.Perm (g.properties.getD [] ++ handlers) := by
  obtain ⟨entry, hname, hentry⟩ := exists_entry l r
  obtain ⟨rfl, hplain⟩ := (eventPropertiesOf_eq_some_iff hentry).1 h
  obtain ⟨rfl, -⟩ := (foundAt_memberGroups_eq_some_iff hentry).1 hg
  have hperm := perm_plainAttributes fs
  refine ⟨(plainHandlers fs).map entry, (mapM_eq_some_iff_map hentry).2 ⟨rfl, fun m hm => ?_⟩, ?_⟩
  · exact hplain m (hperm.mem_iff.2 (List.mem_append_right _ hm))
  · refine (hperm.map entry).trans ?_
    rw [List.map_append]
    exact (perm_selectSorted fs _ _).symm.append_right _

theorem nodup_eventPropertiesOf (hw : ∀ m ∈ Fragments.members fs, m.WellNamed) :
    (properties.map (·.name)).Nodup := by
  obtain ⟨entry, hentryName, hentry⟩ := exists_entry l r
  obtain ⟨rfl, -⟩ := (eventPropertiesOf_eq_some_iff hentry).1 h
  have hnamed : ∀ m ∈ selected fs [Member.isAttribute, Test.not Member.isStatic],
      m.isNamed = true := by
    intro m hm
    obtain ⟨hfirst, htests⟩ := mem_selected.1 hm
    exact isNamed_of_isAttribute hw hfirst (htests _ List.mem_cons_self)
  have hname : (fun e : PropertyEntry => e.name) ∘ entry = Member.nameOrEmpty :=
    funext hentryName
  rw [List.map_map, hname]
  exact nodup_names hw hnamed

end Found

/-! ## The parent -/

/-- **The lists and the parent of an overview are those of its main definition.** -/
theorem parent_of_overview {name : String} {o : Overview} {d : Document}
    (hfound : outcomeAt l r (Registry.definitionsOf name) = .ok (d, fs))
    (ho : answerAt l r (overview name) = some (.ok o)) :
    ∃ main, Fragments.mainInterface? fs = some main ∧
      foundAt l r (memberGroups fs) = some o.members ∧ o.parent.map Prod.fst = main.parent := by
  rw [answerAt_overview, hfound] at ho
  change andThen (some (interfaceOf name fs)) _ = _ at ho
  obtain ⟨main, hmain, ho⟩ := andThen_eq_ok_iff.1 ho
  obtain ⟨members, hmembers, ho⟩ := Option.bind_eq_some_iff.1 ho
  obtain ⟨parent, hparent, ho⟩ := Option.map_eq_some_iff.1 ho
  obtain ⟨parent, rfl, rfl⟩ := map_eq_ok_iff.1 ho
  refine ⟨main, interfaceOf_eq_ok_iff.1 (Option.some.inj hmain), hmembers, ?_⟩
  cases parent with
  | some parent => exact (exists_of_parentGroups hparent).1.symm
  | none =>
    rw [answerAt_parentGroups] at hparent
    cases hnamed : main.parent with
    | none => rfl
    | some named =>
      rw [hnamed] at hparent
      obtain ⟨parentFs, -, hg⟩ := andThen_eq_ok_iff.1 hparent
      obtain ⟨g, -, hne⟩ := Option.map_eq_some_iff.1 hg
      cases hne

/-! ## Agreement -/

/-- **An event agrees with the overview of its interface.**  It has the parent of this interface,
and its properties are those of the overview and an entry for each event handler that is not
static; a name is that of one of them only.  An event without an interface, or with the base of
all events, has neither a parent nor properties. -/
theorem event_agrees_with_overview {interface event : String} {found : FoundEvent}
    (halike : l.Alike r s) (h : answerAt l r (findEvent interface event) = some (.ok found)) :
    (∀ name, found.interface = some name → name ≠ baseEvent →
      ∀ o, answerAt l s (overview name) = some (.ok o) →
        found.parent = o.parent.map Prod.fst ∧
        ∃ fs handlers, outcomeAt l s (fragmentsOf name) = .ok fs ∧
          (plainHandlers fs).mapM (fun m => foundAt l s (propertyEntry m)) = some handlers ∧
          found.properties.Perm (o.members.properties.getD [] ++ handlers) ∧
          (found.properties.map (·.name)).Nodup) ∧
      ((∀ name, found.interface = some name → name = baseEvent) →
        found.parent = none ∧ found.properties = []) := by
  obtain ⟨eventFs, handler, t, -, -, -, hwith⟩ := exists_of_findEvent h
  by_cases hplain : ∀ name, eventInterface? t event interface = some name → name = baseEvent
  · rw [answerAt_withEventInterface_plain hplain] at hwith
    cases hwith
    exact ⟨fun name hi hname => absurd (hplain name hi) hname, fun _ => ⟨rfl, rfl⟩⟩
  · push Not at hplain
    obtain ⟨name, hi, hname⟩ := hplain
    rw [answerAt_withEventInterface hi hname] at hwith
    obtain ⟨⟨d, fs⟩, hfound, hwith⟩ := andThen_eq_ok_iff.1 hwith
    obtain ⟨properties, hproperties, hsome⟩ := Option.map_eq_some_iff.1 hwith
    cases hsome
    refine ⟨fun other ho _ o hoverview => ?_, fun hall => absurd (hall name hi) hname⟩
    cases hi.symm.trans ho
    -- Both pages are made of the same definitions, whatever has been loaded before them.
    have hfound' : outcomeAt l s (Registry.definitionsOf name) = .ok (d, fs) :=
      ((Composed.definitionsOf name).steady.value halike).symm.trans (Option.some.inj hfound)
    have hsame : eventPropertiesOf l r fs = eventPropertiesOf l s fs :=
      congrArg (·.map (·.getD [])) ((Ends.propertyEntries _).composed.steady.value halike)
    rw [hsame] at hproperties
    obtain ⟨hd, hp⟩ := exists_of_definitionsOf hfound'
    obtain ⟨main, hmain, hmembers, hparent⟩ := parent_of_overview hfound' hoverview
    obtain ⟨handlers, hhandlers, hperm⟩ := perm_eventPropertiesOf hproperties hmembers
    refine ⟨?_, fs, handlers, outcomeAt_fragmentsOf hd hp (hmain ▸ rfl), hhandlers, hperm,
      nodup_eventPropertiesOf hproperties (wellNamed_of_parse hp)⟩
    rw [hparent, hmain]
    rfl

def firingDocument : Document :=
  Sample.document "A" .interface "interface A \x7b attribute EventHandler onend; \x7d;"

def endEventDocument : Document :=
  { Sample.document "E" .interface ("interface E : P \x7b attribute EventHandler onx; " ++
      "static attribute EventHandler ony; attribute long b; readonly attribute long a; \x7d;") with
    parent := some ⟨"P", some "interface P \x7b\x7d;"⟩ }

def firingRegistry : Registry where
  kept := some { events := [⟨"end", some "E", ["A"]⟩] }
  documents := [("A", firingDocument), ("E", endEventDocument)]

def endEvent : Interface where
  name := "E"
  parent := some "P"
  members := [
    .ofAttribute "onx" (.named "EventHandler"),
    { Member.ofAttribute "ony" (.named "EventHandler") with qualifier := .static },
    .ofAttribute "b" (.named "long"),
    { Member.ofAttribute "a" (.named "long") with readonly := true }]

theorem parse_endEventDocument : parse endEventDocument.combined = .ok [.interface endEvent] :=
  (parse_append _ _).trans (by decide +kernel)

theorem exists_overview_endEvent :
    ∃ o, answerAt { source := .outside } firingRegistry (overview "E") = some (.ok o) := by
  have hd : Library.documentAt { source := .outside } firingRegistry "E" = .ok endEventDocument :=
    rfl
  have hp : parse "interface P {};" = .ok [.interface { name := "P" }] := by decide +kernel
  have hfragments : outcomeAt { source := .outside } firingRegistry
      (parentFragments endEventDocument "P") = .ok [.interface { name := "P" }] := by
    change parseFor "P" "interface P {};" = _
    unfold parseFor
    rw [hp]
    rfl
  obtain ⟨g, hg⟩ := (Ends.memberGroups [.interface endEvent]).exists_found_outside
    firingRegistry
  obtain ⟨p, hp⟩ := (Ends.memberGroups [.interface { name := "P" }]).exists_found_outside
    firingRegistry
  have hparent : answerAt { source := .outside } firingRegistry
      (parentGroups endEventDocument endEvent) = some (.ok (some ("P", p))) := by
    rw [answerAt_parentGroups]
    change andThen (some (outcomeAt _ _ (parentFragments endEventDocument "P"))) _ = _
    rw [hfragments]
    dsimp only [andThen, Option.bind]
    rw [hp]
    rfl
  rw [answerAt_overview_of_main hd parse_endEventDocument rfl, hg, Option.bind_some, hparent]
  exact ⟨_, rfl⟩

theorem exists_findEvent_end :
    ∃ found, answerAt { source := .outside } firingRegistry (findEvent "A" "end") =
      some (.ok found) ∧ found.interface = some "E" := by
  have hp : parse firingDocument.combined = .ok [.interface { name := "A", members := [
      .ofAttribute "onend" (.named "EventHandler")] }] := by decide +kernel
  have hd : Library.documentAt { source := .outside } firingRegistry "A" = .ok firingDocument := rfl
  have he : Library.documentAt { source := .outside } firingRegistry "E" = .ok endEventDocument :=
    rfl
  have ht : outcomeAt { source := .outside } firingRegistry Registry.tables =
      .ok { events := [⟨"end", some "E", ["A"]⟩] } := rfl
  obtain ⟨es, hes⟩ := Ends.exists_found_outside (.propertyEntries
    (select [.interface endEvent] [Member.isAttribute, Test.not Member.isStatic])) firingRegistry
  rw [answerAt_findEvent, outcomeAt_fragmentsOf hd hp rfl, ht]
  change ∃ found, answerAt _ _ (withEventInterface _) = _ ∧ _
  rw [answerAt_withEventInterface rfl (by decide),
    outcomeAt_definitionsOf he parse_endEventDocument]
  change ∃ found, (eventPropertiesOf _ _ [.interface endEvent]).map _ = _ ∧ _
  rw [eventPropertiesOf, hes]
  exact ⟨_, rfl, rfl⟩

/-- The page of an event whose interface has a parent, event handlers, one of them static, and
other attributes, and the page of this interface after it. -/
theorem event_agrees_with_overview_of_child :
    ∃ (r s : Registry) (found : FoundEvent) (o : Overview) (fs : Fragments)
      (handlers : List PropertyEntry),
      Library.Alike { source := .outside } r s ∧
      answerAt { source := .outside } r (findEvent "A" "end") = some (.ok found) ∧
      found.interface = some "E" ∧ "E" ≠ baseEvent ∧
      answerAt { source := .outside } s (overview "E") = some (.ok o) ∧
      found.parent = o.parent.map Prod.fst ∧
      outcomeAt { source := .outside } s (fragmentsOf "E") = .ok fs ∧
      (plainHandlers fs).map Member.nameOrEmpty = ["onx"] ∧
      (plainHandlers fs).mapM (fun m => foundAt { source := .outside } s (propertyEntry m)) =
        some handlers ∧
      found.properties.Perm (o.members.properties.getD [] ++ handlers) := by
  obtain ⟨found, hfound, hi⟩ := exists_findEvent_end
  obtain ⟨o, ho⟩ := exists_overview_endEvent
  have halike : Library.Alike { source := .outside } firingRegistry
      (registryAfter { source := .outside } firingRegistry (findEvent "A" "end").result.run) :=
    ((Ends.findEvent "A" "end").composed.steady.alike _ _).symm
  have ho' := ((Ends.overview "E").composed.steady.value halike).symm.trans ho
  obtain ⟨hparent, fs, handlers, hf, hhandlers, hperm, -⟩ :=
    (event_agrees_with_overview halike hfound).1 "E" hi (by decide) o ho'
  have hsame : fs = [.interface endEvent] := by
    have hf' := ((Composed.fragmentsOf "E").steady.value halike).trans hf
    have he : Library.documentAt { source := .outside } firingRegistry "E" =
        .ok endEventDocument := rfl
    exact Except.ok.inj (hf'.symm.trans (outcomeAt_fragmentsOf he parse_endEventDocument rfl))
  exact ⟨_, _, found, o, fs, handlers, halike, hfound, hi, by decide, ho', hparent, hf,
    by rw [hsame]; rfl, hhandlers, hperm⟩

end IdlDocs
