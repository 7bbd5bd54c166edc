import IdlDocs.Proofs.Interfaces.Overview
import IdlDocs.Proofs.Pages.Items
import IdlDocs.Proofs.Pages.Rendered

/-!
# Sections of pages

The page of an interface has two sections with lists of properties, that of an event has one.
Their headings stand in no other line of the page, whatever the record holds, as long as all of
it is in one line but for the list items in the types of properties.

* `PropertyList`, `Page.propertyLists`: the lists of a record.
* `PropertyList.StandsIn`: **the items in the section of a list are those of its entries.**
* `InterfacePage.IsNested`, `EventPage.IsNested`: records without other line breaks.
* `standsIn_of_interface`, `standsIn_of_event`: **the lists of such a record stand in its page.**
-/

namespace IdlDocs

open Templates Text

/-! ## Lists -/

/-- A list of properties in a page. -/
structure PropertyList where
  title : String
  /-- What the references of its items start with. -/
  owner : String
  entries : List PropertyEntry

def headingLine (title : String) : List Char := ("## " ++ title).toList

theorem isHeading_headingLine (title : String) : isHeading (headingLine title) = true := by
  unfold isHeading headingLine
  rw [String.toList_append]
  exact List.isPrefixOf_iff_prefix.2 (List.prefix_append _ _)

def Page.propertyLists : Page → List PropertyList
  | interface page =>
    [⟨"Static properties", page.interface, page.members.propertyList true⟩,
      ⟨"Instance properties", page.interface, page.members.propertyList false⟩]
  | event page => [⟨"Event properties", page.eventInterface.getD "", page.properties⟩]
  | member _ => []

/-- The items in the sections of a list are those of its entries. -/
def PropertyList.StandsIn (list : PropertyList) (text : List Char) : Prop :=
  Itemizes list.owner list.entries (sectionLines (headingLine list.title) false (parts '\n' text))

def listTitles : List String := ["Static properties", "Instance properties", "Event properties"]

def listHeading : LineKind where
  has line := (listTitles.map headingLine).contains line
  leads := ['#']
  mem_leads := by
    intro c cs h
    obtain ⟨title, -, htitle⟩ := List.mem_map.1 (List.contains_iff_mem.1 h)
    unfold headingLine at htitle
    rw [String.toList_append] at htitle
    rw [← (List.cons.inj htitle).1]
    exact List.mem_cons_self

def headingOrItem : LineKind where
  has line := isHeading line || isItem line
  leads := ['#', '-']
  mem_leads := by
    intro c cs h
    unfold isHeading isItem at h
    rw [Bool.or_eq_true, List.isPrefixOf_iff_prefix, List.isPrefixOf_iff_prefix,
      List.cons_prefix_cons, List.cons_prefix_cons] at h
    rcases h with ⟨rfl, -⟩ | ⟨rfl, -⟩ <;> decide

def IsClear (ls : List (List Char)) : Prop := ∀ title ∈ listTitles, headingLine title ∉ ls

namespace IsClear

variable {ls ms : List (List Char)}

theorem append (hls : IsClear ls) (hms : IsClear ms) : IsClear (ls ++ ms) := by
  intro title htitle
  rw [List.mem_append, not_or]
  exact ⟨hls title htitle, hms title htitle⟩

theorem of_not_isHeading (h : ∀ line ∈ ls, isHeading line = false) : IsClear ls := by
  intro title _ hmem
  have hheading := isHeading_headingLine title
  rw [h _ hmem] at hheading
  cases hheading

theorem of_listHeading (h : ∀ line ∈ ls, listHeading.has line = false) : IsClear ls := by
  intro title htitle hmem
  have hhas : listHeading.has (headingLine title) = true :=
    List.contains_iff_mem.2 (List.mem_map_of_mem htitle)
  rw [h _ hmem] at hhas
  cases hhas

end IsClear

/-! ## Records in lines -/

/-- A record of an interface that is in one line but for the list items in types. -/
structure InterfacePage.IsNested (p : InterfacePage) : Prop where
  interface : IsUnbroken p.interface
  group : ∀ g, p.group = some g → IsUnbroken g
  parent : ∀ name, p.parent = some name → IsUnbroken name
  properties : ∀ isStatic, ∀ e ∈ p.members.propertyList isStatic, e.IsNested
  methods : ∀ isStatic, ∀ e ∈ p.members.methodList isStatic, IsUnbroken e.name
  events : ∀ e ∈ p.events, IsUnbroken e

/-- A record of an event that is in one line but for the list items in types. -/
structure EventPage.IsNested (p : EventPage) : Prop where
  interface : IsUnbroken p.interface
  event : IsUnbroken p.event
  group : ∀ g, p.group = some g → IsUnbroken g
  eventInterface : ∀ name, p.eventInterface = some name → IsUnbroken name
  parentEventInterface : ∀ name, p.parentEventInterface = some name → IsUnbroken name
  properties : ∀ e ∈ p.properties, e.IsNested
  /-- Properties are those of an interface that is known. -/
  known : p.eventInterface = none → p.properties = []

def pageWords : Words where
  paths := ["interfaceName", "groupName", "parentName", "eventShortName", "eventInterfaceName",
    "parentEventInterfaceName"].map fun key => [key]
  lists := [(["staticMethods"], [["name"]]), (["methods"], [["name"]]), (["eventNames"], [[]])]

theorem isInline_stringOrNull {s : Option String} (h : ∀ t, s = some t → IsUnbroken t) :
    IsInline (.stringOrNull s) := by
  cases s with
  | none => exact .inl rfl
  | some t => exact isInline_string (h t rfl)

theorem isInline_of_mem_methods {es : Option (List MethodEntry)}
    (h : ∀ e ∈ es.getD [], IsUnbroken e.name) {item : Frame}
    (hitem : item ∈ itemFrames (listOrNull MethodEntry.toJson es)) :
    IsInline (member item.value "name") := by
  cases es with
  | none => exact absurd hitem List.not_mem_nil
  | some es =>
    obtain ⟨e, he, hvalue⟩ := List.mem_map.1 (value_mem_of_mem_itemFrames hitem)
    rw [← hvalue]
    exact isInline_string (h e he)

theorem isInline_of_mem_strings {ss : List String} (h : ∀ s ∈ ss, IsUnbroken s) {item : Frame}
    (hitem : item ∈ itemFrames (.strings ss)) : IsInline item.value := by
  obtain ⟨s, hs, hvalue⟩ := List.mem_map.1 (value_mem_of_mem_itemFrames hitem)
  rw [← hvalue]
  exact isInline_string (h s hs)

theorem InterfacePage.IsNested.holds {p : InterfacePage} (h : p.IsNested) :
    pageWords.Holds p.toJson where
  paths := by
    have hnull : IsInline .null := .inl rfl
    exact List.forall_mem_cons.2 ⟨isInline_string h.interface, List.forall_mem_cons.2
      ⟨isInline_stringOrNull h.group, List.forall_mem_cons.2 ⟨isInline_stringOrNull h.parent,
        List.forall_mem_cons.2 ⟨hnull, List.forall_mem_cons.2 ⟨hnull,
          List.forall_mem_singleton.2 hnull⟩⟩⟩⟩⟩
  lists := by
    refine List.forall_mem_cons.2 ⟨?_, List.forall_mem_cons.2 ⟨?_, List.forall_mem_singleton.2 ?_⟩⟩
    · exact fun item hitem => List.forall_mem_singleton.2
        (isInline_of_mem_methods (h.methods true) hitem)
    · exact fun item hitem => List.forall_mem_singleton.2
        (isInline_of_mem_methods (h.methods false) hitem)
    · exact fun item hitem => List.forall_mem_singleton.2 (isInline_of_mem_strings h.events hitem)

theorem EventPage.IsNested.holds {p : EventPage} (h : p.IsNested) : pageWords.Holds p.toJson where
  paths := by
    have hnull : IsInline .null := .inl rfl
    exact List.forall_mem_cons.2 ⟨isInline_string h.interface, List.forall_mem_cons.2
      ⟨isInline_stringOrNull h.group, List.forall_mem_cons.2 ⟨hnull, List.forall_mem_cons.2
        ⟨isInline_string h.event, List.forall_mem_cons.2 ⟨isInline_stringOrNull h.eventInterface,
          List.forall_mem_singleton.2 (isInline_stringOrNull h.parentEventInterface)⟩⟩⟩⟩⟩
  lists := by
    refine List.forall_mem_cons.2 ⟨?_, List.forall_mem_cons.2 ⟨?_, List.forall_mem_singleton.2 ?_⟩⟩
      <;> exact fun item hitem => absurd hitem List.not_mem_nil

/-! ## Parts of pages -/

variable {data : Json} {ps : List Piece} {s text : List Char}

/-- Pieces that write no heading of a list. -/
theorem exists_clearLines (hps : spotAfter? listHeading [pageWords] .fresh ps = some .fresh)
    (hw : pageWords.Holds data) (ht : renderAll? [⟨data, []⟩] ps = some text) :
    ∃ ls, IsLines ls text ∧ IsClear ls := by
  obtain ⟨ls, hlines, hls⟩ := exists_lines hps hw ht
  exact ⟨ls, hlines, .of_listHeading hls⟩

/-- Pieces that write no heading and no item. -/
theorem exists_plainLines (hps : spotAfter? headingOrItem [pageWords] .fresh ps = some .fresh)
    (hw : pageWords.Holds data) (ht : renderAll? [⟨data, []⟩] ps = some text) :
    ∃ ls, IsLines ls text ∧ (∀ line ∈ ls, isItem line = false) ∧
      ∀ line ∈ ls, isHeading line = false := by
  obtain ⟨ls, hlines, hls⟩ := exists_lines hps hw ht
  refine ⟨ls, hlines, fun line hl => ?_, fun line hl => ?_⟩
  · exact (Bool.or_eq_false_iff.1 (hls line hl)).2
  · exact (Bool.or_eq_false_iff.1 (hls line hl)).1

theorem exists_afterLines (hps : spotAfter? listHeading [pageWords] .fresh ps = some .fresh)
    (hw : pageWords.Holds data) (ht : renderAll? [⟨data, []⟩] ps = some text)
    (hstart : "\n## ".toList <+: text) :
    ∃ next after, parts '\n' text = [] :: next :: after ∧ isHeading next = true ∧
      IsClear (next :: after) := by
  obtain ⟨ls, hlines, hclear⟩ := exists_clearLines hps hw ht
  obtain ⟨rest, rfl⟩ := hstart
  obtain ⟨p, more, hp⟩ := List.exists_cons_of_ne_nil (parts_ne_nil '\n' rest)
  have hparts : parts '\n' ("\n## ".toList ++ rest) = [] :: ("## ".toList ++ p) :: more := by
    change parts '\n' ('\n' :: ("## ".toList ++ rest)) = _
    rw [parts, if_pos rfl, parts_append_of_notMem (by decide) hp]
  refine ⟨_, more, hparts, List.isPrefixOf_iff_prefix.2 (List.prefix_append _ _), ?_⟩
  intro title htitle hmem
  have hall : headingLine title ∈ ls ++ [[]] := by
    rw [← hlines, hparts]
    exact List.mem_cons_of_mem [] hmem
  rcases List.mem_append.1 hall with h | h
  · exact hclear title htitle h
  · have hnil : isHeading (headingLine title) = false := by rw [List.mem_singleton.1 h]; rfl
    rw [isHeading_headingLine] at hnil
    cases hnil

/-! ## Lists in pages -/

/-- A value with a list of entries and, if there are some, with their owner. -/
structure HasList (data : Json) (listKey key owner : String) (es : List PropertyEntry) :
    Prop where
  words : pageWords.Holds data
  isTrue : Templates.isTrue (member data listKey) = !es.isEmpty
  frames : itemFrames (member data listKey) = itemFrames (.array (es.map PropertyEntry.toJson))
  owned : es ≠ [] → member data key = .string owner
  unbroken : IsUnbroken owner
  nested : ∀ e ∈ es, e.IsNested

theorem isTrue_listOrNull (es : Option (List PropertyEntry)) :
    isTrue (listOrNull PropertyEntry.toJson es) = !(es.getD []).isEmpty := by
  cases es with
  | none => rfl
  | some es => cases es <;> rfl

theorem itemFrames_listOrNull (es : Option (List PropertyEntry)) :
    itemFrames (listOrNull PropertyEntry.toJson es) =
      itemFrames (.array ((es.getD []).map PropertyEntry.toJson)) := by
  cases es <;> rfl

variable {listKey key owner title : String} {es : List PropertyEntry}
  {marks note empty : List Piece}

theorem HasList.exists_bodyLines (h : HasList data listKey key owner es)
    (hmarks : ∀ p ∈ marks, IsMark p)
    (hnote : spotAfter? headingOrItem [pageWords] .fresh note = some .fresh)
    (hempty : spotAfter? headingOrItem [pageWords] .fresh empty = some .fresh)
    (ht : renderAll? [⟨data, []⟩]
      (note ++ [Piece.repeat (valueOf listKey) (itemOf key marks) empty]) = some text) :
    ∃ body, IsLines body text ∧ Itemizes owner es body ∧ ∀ line ∈ body, isHeading line = false := by
  obtain ⟨noteText, rest, hnoteText, hrest, rfl⟩ := renderAll?_append_eq_some.1 ht
  obtain ⟨listText, rest, hlistText, hnil, rfl⟩ := renderAll?_cons_eq_some.1 hrest
  rw [renderAll?] at hnil
  cases hnil
  rw [List.append_nil]
  obtain ⟨ls, hls, hitems, hheadings⟩ := exists_plainLines hnote h.words hnoteText
  have hlist : ∃ ms, IsLines ms listText ∧ Itemizes owner es ms ∧
      ∀ line ∈ ms, isHeading line = false := by
    have hframes : itemFrames ((valueOf listKey).eval [⟨data, []⟩]) =
        itemFrames (.array (es.map PropertyEntry.toJson)) := h.frames
    -- Without entries the other branch of the loop is written, and there need not be an owner.
    by_cases hne : es = []
    · subst hne
      rw [Piece.render?, hframes] at hlistText
      obtain ⟨ms, hms, hitems, hheadings⟩ := exists_plainLines hempty h.words hlistText
      exact ⟨ms, hms, .nothing hitems, hheadings⟩
    · obtain ⟨other, ms, hother, hms⟩ :=
        exists_itemLines (h.owned hne) h.unbroken hmarks hne h.nested hframes
      cases hother.symm.trans hlistText
      exact ⟨ms, hms⟩
  obtain ⟨ms, hms, hitemizes, hmsheadings⟩ := hlist
  refine ⟨ls ++ ms, hls.append hms, ?_, List.forall_mem_append.2 ⟨hheadings, hmsheadings⟩⟩
  exact (Itemizes.nothing hitems).append hitemizes

theorem HasList.exists_partLines (h : HasList data listKey key owner es)
    (hmarks : ∀ p ∈ marks, IsMark p)
    (hnote : spotAfter? headingOrItem [pageWords] .fresh note = some .fresh) {lead : String}
    {head : List (List Char)} (hlead : IsLines head lead.toList)
    (ht : (ifTrue listKey (.text lead ::
      (note ++ [Piece.repeat (valueOf listKey) (itemOf key marks) []]))).render? [⟨data, []⟩] =
        some text) :
    ∃ ls, IsLines ls text ∧ (es = [] ∧ ls = [] ∨ ∃ body, ls = head ++ body ∧
      Itemizes owner es body ∧ ∀ line ∈ body, isHeading line = false) := by
  have hvalue : (valueOf listKey).eval [⟨data, []⟩] = member data listKey := rfl
  unfold ifTrue at ht
  rw [Piece.render?, hvalue, h.isTrue] at ht
  by_cases hne : es = []
  · subst hne
    rw [if_neg (by simp), renderAll?] at ht
    cases ht
    exact ⟨[], .nil, .inl ⟨rfl, rfl⟩⟩
  · rw [if_pos (by simpa using hne), renderAll?_cons_eq_some] at ht
    obtain ⟨leadText, rest, hleadText, hrest, rfl⟩ := ht
    rw [Piece.render?] at hleadText
    cases hleadText
    obtain ⟨body, hbody, hitemizes, hheadings⟩ := h.exists_bodyLines hmarks hnote rfl hrest
    exact ⟨head ++ body, hlead.append hbody, .inr ⟨body, rfl, hitemizes, hheadings⟩⟩

theorem itemizes_sectionLines {before body after : List (List Char)} {next : List Char}
    (hbefore : headingLine title ∉ before) (h : Itemizes owner es body)
    (hbody : ∀ line ∈ body, isHeading line = false) (hnext : isHeading next = true)
    (hafter : headingLine title ∉ next :: after) :
    Itemizes owner es (sectionLines (headingLine title) false
      (before ++ (headingLine title :: (([] :: body) ++ [] :: next :: after)))) := by
  have hinside : ∀ line ∈ [] :: body, isHeading line = false := List.forall_mem_cons.2 ⟨rfl, hbody⟩
  rw [sectionLines_between hbefore (isHeading_headingLine title) hinside hnext hafter]
  have hall : Itemizes owner ([] ++ es ++ []) ([[]] ++ body ++ [[]]) :=
    ((Itemizes.nothing (List.forall_mem_singleton.2 rfl)).append h).append
      (.nothing (List.forall_mem_singleton.2 rfl))
  rwa [List.append_nil] at hall

theorem itemizes_of_notMem {ls : List (List Char)} (h : headingLine title ∉ ls) :
    Itemizes owner [] (sectionLines (headingLine title) false ls) := by
  have hnil : sectionLines (headingLine title) false (ls ++ []) = [] := sectionLines_of_notMem h
  rw [List.append_nil] at hnil
  rw [hnil]
  exact .nothing fun line hl => absurd hl List.not_mem_nil

/-- **The items in the section of a list that stands only if there are entries.** -/
theorem itemizes_part {before head ls after : List (List Char)} {next : List Char}
    (hbefore : headingLine title ∉ before) (hhead : headingLine title ∉ head)
    (hls : es = [] ∧ ls = [] ∨ ∃ body, ls = head ++ [headingLine title, []] ++ body ∧
      Itemizes owner es body ∧ ∀ line ∈ body, isHeading line = false)
    (hnext : isHeading next = true) (hafter : headingLine title ∉ next :: after) :
    Itemizes owner es (sectionLines (headingLine title) false
      (before ++ (ls ++ [] :: next :: after))) := by
  have hempty : headingLine title ≠ [] := fun he => by
    have hheading := isHeading_headingLine title
    rw [he] at hheading
    cases hheading
  rcases hls with ⟨rfl, rfl⟩ | ⟨body, rfl, hitemizes, hbody⟩
  · apply itemizes_of_notMem
    rw [List.mem_append, List.nil_append, List.mem_cons, not_or, not_or]
    exact ⟨hbefore, hempty, hafter⟩
  · have hboth : headingLine title ∉ before ++ head := by
      rw [List.mem_append, not_or]
      exact ⟨hbefore, hhead⟩
    have hitems := itemizes_sectionLines hboth hitemizes hbody hnext hafter
    simpa using hitems

/-! ## The page of an interface -/

theorem isMark_readonlyMark : IsMark readonlyMark := isMark_ifTrue _ (by decide)

theorem isMark_secureMark : IsMark secureMark := isMark_ifTrue _ (by decide)

/-- The two lists of properties in the template of an interface.  There are 21 pieces in front of
them, and they are of four pieces with the heading and the note between them. -/
theorem interfaceTemplate_eq :
    interfaceTemplate = interfaceTemplate.take 21 ++
      (ifTrue "staticProperties" (.text "\n## Static properties\n\n" ::
          ([] ++ [Piece.repeat (valueOf "staticProperties") propertyItem []])) ::
        ([Piece.text "\n## Instance properties\n\n"] ++
          (([inherited "properties"] ++ [Piece.repeat (valueOf "properties") propertyItem
            [.text "_This interface has no properties of its own._\n"]]) ++
          interfaceTemplate.drop 25))) := rfl

theorem prefix_of_text {frames : List Frame} {lead : String} {t : List Char}
    (hlead : t <+: lead.toList) (ht : renderAll? frames (.text lead :: ps) = some text) :
    t <+: text := by
  obtain ⟨first, rest, hfirst, -, rfl⟩ := renderAll?_cons_eq_some.1 ht
  rw [Piece.render?] at hfirst
  cases hfirst
  exact hlead.trans (List.prefix_append _ _)

/-- The sections of methods begin with their headings, with static methods or without. -/
theorem interface_rest_starts {frames : List Frame}
    (ht : renderAll? frames (interfaceTemplate.drop 25) = some text) :
    "\n## ".toList <+: text := by
  have hcons : renderAll? frames (ifTrue "staticMethods" [.text "\n## Static methods\n\n",
      .repeat (valueOf "staticMethods") methodItem []] :: interfaceTemplate.drop 26) =
        some text := ht
  obtain ⟨part, rest, hpart, hrest, rfl⟩ := renderAll?_cons_eq_some.1 hcons
  unfold ifTrue at hpart
  rw [Piece.render?] at hpart
  split at hpart
  · exact (prefix_of_text (List.isPrefixOf_iff_prefix.1 (by decide)) hpart).trans
      (List.prefix_append _ _)
  · rw [renderAll?] at hpart
    cases hpart
    exact prefix_of_text (List.isPrefixOf_iff_prefix.1 (by decide)) hrest

theorem interface_front_isClear :
    spotAfter? listHeading [pageWords] .fresh (interfaceTemplate.take 21) = some .fresh := by
  decide

theorem interface_rest_isClear :
    spotAfter? listHeading [pageWords] .fresh (interfaceTemplate.drop 25) = some .fresh := by
  decide

/-- The lines of the page of an interface: those in front, those of the static properties, those
of the others and those from the next heading on. -/
theorem exists_interfaceLines {p : InterfacePage} (h : p.IsNested)
    (ht : renderAll? [⟨p.toJson, []⟩] interfaceTemplate = some text) :
    ∃ before ls body next after,
      parts '\n' text = before ++ (ls ++ [] :: headingLine "Instance properties" ::
        (([] :: body) ++ [] :: next :: after)) ∧
      IsClear before ∧
      (p.members.propertyList true = [] ∧ ls = [] ∨
        ∃ items, ls = [[]] ++ [headingLine "Static properties", []] ++ items ∧
          Itemizes p.interface (p.members.propertyList true) items ∧
            ∀ line ∈ items, isHeading line = false) ∧
      Itemizes p.interface (p.members.propertyList false) body ∧
      (∀ line ∈ body, isHeading line = false) ∧ isHeading next = true ∧
      IsClear (next :: after) := by
  have hstatic : HasList p.toJson "staticProperties" "interfaceName" p.interface
      (p.members.propertyList true) :=
    ⟨h.holds, isTrue_listOrNull _, itemFrames_listOrNull _, fun _ => rfl, h.interface,
      h.properties true⟩
  have hinstance : HasList p.toJson "properties" "interfaceName" p.interface
      (p.members.propertyList false) :=
    ⟨h.holds, isTrue_listOrNull _, itemFrames_listOrNull _, fun _ => rfl, h.interface,
      h.properties false⟩
  have hmarks : ∀ m ∈ [readonlyMark, secureMark], IsMark m :=
    List.forall_mem_cons.2 ⟨isMark_readonlyMark, List.forall_mem_singleton.2 isMark_secureMark⟩
  have hlead : IsLines ([[]] ++ [headingLine "Static properties", []])
      "\n## Static properties\n\n".toList := by decide
  -- The page is cut where the template is: front, static properties, heading, the others, rest.
  rw [interfaceTemplate_eq, propertyItem_eq] at ht
  obtain ⟨front, t₁, hfront, ht₁, rfl⟩ := renderAll?_append_eq_some.1 ht
  obtain ⟨part, t₂, hpart, ht₂, rfl⟩ := renderAll?_cons_eq_some.1 ht₁
  obtain ⟨title, t₃, htitle, ht₃, rfl⟩ := renderAll?_append_eq_some.1 ht₂
  obtain ⟨list, rest, hlist, hrest, rfl⟩ := renderAll?_append_eq_some.1 ht₃
  obtain ⟨before, hbefore, hclear⟩ := exists_clearLines interface_front_isClear h.holds hfront
  obtain ⟨ls, hls, hform⟩ := hstatic.exists_partLines hmarks rfl hlead hpart
  obtain ⟨body, hbody, hitemizes, hheadings⟩ :=
    hinstance.exists_bodyLines hmarks (by decide) (by decide) hlist
  obtain ⟨next, after, hafter, hnext, hrestclear⟩ :=
    exists_afterLines interface_rest_isClear h.holds hrest (interface_rest_starts hrest)
  have htitleLines : IsLines [[], headingLine "Instance properties", []] title := by
    rw [renderAll?, renderAll?, Piece.render?] at htitle
    cases htitle
    decide
  refine ⟨before, ls, body, next, after, ?_, hclear, hform, hitemizes, hheadings, hnext, hrestclear⟩
  rw [hbefore.parts_append, hls.parts_append, htitleLines.parts_append, hbody.parts_append, hafter]
  rfl

/-- **The lists of the record of an interface stand in its page.** -/
theorem standsIn_of_interface {p : InterfacePage} (h : p.IsNested)
    (ht : renderAll? [⟨p.toJson, []⟩] interfaceTemplate = some text) :
    ∀ list ∈ (Page.interface p).propertyLists, list.StandsIn text := by
  obtain ⟨before, ls, body, next, after, hlines, hclear, hform, hitemizes, hheadings, hnext,
    hrestclear⟩ := exists_interfaceLines h ht
  have hempty : IsClear [[]] := .of_not_isHeading (List.forall_mem_singleton.2 rfl)
  have hbodyClear : IsClear ([] :: body) :=
    .of_not_isHeading (List.forall_mem_cons.2 ⟨rfl, hheadings⟩)
  have hrestAll : IsClear (([] :: body) ++ [] :: next :: after) :=
    hbodyClear.append (hempty.append hrestclear)
  have hs : "Static properties" ∈ listTitles := by decide
  have hi : "Instance properties" ∈ listTitles := by decide
  unfold PropertyList.StandsIn
  rw [hlines]
  refine List.forall_mem_cons.2 ⟨?_, List.forall_mem_singleton.2 ?_⟩
  -- The static properties end at the heading of the others, which are all behind them.
  · have hafterStatic : headingLine "Static properties" ∉
        headingLine "Instance properties" :: (([] :: body) ++ [] :: next :: after) := by
      rw [List.mem_cons, not_or]
      exact ⟨by decide, hrestAll _ hs⟩
    exact itemizes_part (hclear _ hs) (hempty _ hs) hform (isHeading_headingLine _) hafterStatic
  · have hpartClear : headingLine "Instance properties" ∉ ls := by
      rcases hform with ⟨-, rfl⟩ | ⟨items, rfl, -, hitems⟩
      · exact List.not_mem_nil
      · rw [List.mem_append, not_or]
        exact ⟨by decide, IsClear.of_not_isHeading hitems _ hi⟩
    have hno : headingLine "Instance properties" ∉ before ++ (ls ++ [[]]) := by
      rw [List.mem_append, List.mem_append, not_or, not_or]
      exact ⟨hclear _ hi, hpartClear, hempty _ hi⟩
    have hitems := itemizes_sectionLines hno hitemizes hheadings hnext (hrestclear _ hi)
    simpa using hitems

/-! ## The page of an event -/

theorem eventTemplate_eq :
    eventTemplate = eventTemplate.take 33 ++
      (ifTrue "eventProperties" (.text "## Event properties\n\n" ::
          ([ifTrue "parentEventInterfaceName"
              [.text "_This interface also inherits properties from its parent, ",
                refer [valueOf "parentEventInterfaceName"], .text "._\n\n"]] ++
            [Piece.repeat (valueOf "eventProperties")
              (itemOf "eventInterfaceName" [readonlyMark]) []])) ::
        eventTemplate.drop 34) := rfl

theorem event_rest_starts {frames : List Frame}
    (ht : renderAll? frames (eventTemplate.drop 34) = some text) : "\n## ".toList <+: text := by
  have hcons : renderAll? frames (.text "\n## Examples\n\n## Specifications\n\n" ::
      eventTemplate.drop 35) = some text := ht
  exact prefix_of_text (List.isPrefixOf_iff_prefix.1 (by decide)) hcons

theorem event_front_isClear :
    spotAfter? listHeading [pageWords] .fresh (eventTemplate.take 33) = some .fresh := by
  decide

theorem event_rest_isClear :
    spotAfter? listHeading [pageWords] .fresh (eventTemplate.drop 34) = some .fresh := by
  decide

/-- **The list of the record of an event stands in its page.** -/
theorem standsIn_of_event {p : EventPage} (h : p.IsNested)
    (ht : renderAll? [⟨p.toJson, []⟩] eventTemplate = some text) :
    ∀ list ∈ (Page.event p).propertyLists, list.StandsIn text := by
  have howner : p.properties ≠ [] → member p.toJson "eventInterfaceName" =
      .string (p.eventInterface.getD "") := by
    intro hne
    have hvalue : member p.toJson "eventInterfaceName" = .stringOrNull p.eventInterface := rfl
    rw [hvalue]
    cases hi : p.eventInterface with
    | none => exact absurd (h.known hi) hne
    | some name => rfl
  have hunbroken : IsUnbroken (p.eventInterface.getD "") := by
    cases hi : p.eventInterface with
    | none => decide
    | some name => exact h.eventInterface name hi
  have hlist : HasList p.toJson "eventProperties" "eventInterfaceName"
      (p.eventInterface.getD "") p.properties :=
    ⟨h.holds, isTrue_listOrNull (some p.properties), rfl, howner, hunbroken, h.properties⟩
  have hlead : IsLines ([] ++ [headingLine "Event properties", []])
      "## Event properties\n\n".toList := by decide
  rw [eventTemplate_eq] at ht
  obtain ⟨front, t₁, hfront, ht₁, rfl⟩ := renderAll?_append_eq_some.1 ht
  obtain ⟨part, rest, hpart, hrest, rfl⟩ := renderAll?_cons_eq_some.1 ht₁
  obtain ⟨before, hbefore, hclear⟩ := exists_clearLines event_front_isClear h.holds hfront
  obtain ⟨ls, hls, hform⟩ := hlist.exists_partLines
    (List.forall_mem_singleton.2 isMark_readonlyMark) (by decide) hlead hpart
  obtain ⟨next, after, hafter, hnext, hrestclear⟩ :=
    exists_afterLines event_rest_isClear h.holds hrest (event_rest_starts hrest)
  have he : "Event properties" ∈ listTitles := by decide
  refine List.forall_mem_singleton.2 ?_
  unfold PropertyList.StandsIn
  rw [hbefore.parts_append, hls.parts_append, hafter]
  exact itemizes_part (hclear _ he) List.not_mem_nil hform hnext (hrestclear _ he)

/-! ## Pages -/

/-- A record that is in one line but for the list items in types. -/
def Page.IsNested : Page → Prop
  | interface page => page.IsNested
  | event page => page.IsNested
  | member _ => True

/-- **The lists of a record stand in its page.** -/
theorem standsIn_of_renderPage {p : Page} (h : p.IsNested) {text : String}
    (ht : renderPage .standard p = .ok text) :
    ∀ list ∈ p.propertyLists, list.StandsIn text.toList := by
  have hpieces := renderAll?_of_renderPage ht
  cases p with
  | interface page => exact standsIn_of_interface h hpieces
  | event page => exact standsIn_of_event h hpieces
  | member page => exact fun list hl => absurd hl List.not_mem_nil

end IdlDocs
