import IdlDocs.Pages.Record
import IdlDocs.Proofs.Templates.Fills
import IdlDocs.Proofs.Templates.Lines

/-!
# Lists of properties

A list of properties has an item for each entry: a line with a reference and some marks, and the
text of the type, which may go on in further lines.

* `Itemizes`: **lines whose items are those of entries, one by one and in their order.**
* `itemOf`, `itemText`, `itemLines`: the pieces of an item, their text and its lines.
* `exists_itemLines`: the lines of a part that is repeated for entries.
-/

namespace IdlDocs

open Templates Text

/-! ## Lines that itemize -/

/-- How the first line of an item starts: with the reference to the property. -/
def PropertyEntry.lead (owner : String) (e : PropertyEntry) : List Char :=
  "- ".toList ++ (pageReference (owner ++ "." ++ e.name)).toList

/-- How the line starts that the text of a type begins in. -/
def typeLead : List Char := "  - : ".toList

/-- Lines of which the list items are those of entries, one by one and in their order.  Each
starts with the reference to its property, and the text of the type goes on in list items that
are indented. -/
structure Itemizes (owner : String) (es : List PropertyEntry) (ls : List (List Char)) : Prop where
  items : List.Forall₂ (fun e line => e.lead owner <+: line) es (ls.filter isItem)
  types : ∀ e ∈ es, ∃ first more, parts '\n' e.type.toList = first :: more ∧
    (typeLead ++ first) :: more <:+: ls ∧ ∀ line ∈ more, IsNestedItem listItemDepth line

namespace Itemizes

variable {owner : String} {es fs : List PropertyEntry} {ls ms : List (List Char)}

theorem nothing (h : ∀ line ∈ ls, isItem line = false) : Itemizes owner [] ls where
  items := by
    rw [List.filter_eq_nil_iff.2 fun line hl => by simp [h line hl]]
    exact .nil
  types := fun e he => absurd he List.not_mem_nil

theorem append (hls : Itemizes owner es ls) (hms : Itemizes owner fs ms) :
    Itemizes owner (es ++ fs) (ls ++ ms) where
  items := by
    rw [List.filter_append]
    exact List.rel_append hls.items hms.items
  types := by
    intro e he
    rcases List.mem_append.1 he with he | he
    · obtain ⟨first, more, hparts, hin, hmore⟩ := hls.types e he
      exact ⟨first, more, hparts, hin.trans (List.prefix_append ls ms).isInfix, hmore⟩
    · obtain ⟨first, more, hparts, hin, hmore⟩ := hms.types e he
      exact ⟨first, more, hparts, hin.trans (List.suffix_append ls ms).isInfix, hmore⟩

end Itemizes

/-! ## The text of an item -/

/-- The pieces of an item: the reference, the marks and the type. -/
def itemOf (key : String) (marks : List Piece) : List Piece :=
  [.text "- ", refer [outerKey key, valueOf "name"]] ++ marks ++ typeLine

theorem propertyItem_eq : propertyItem = itemOf "interfaceName" [readonlyMark, secureMark] := rfl

def itemText (owner : String) (mark : List Char) (e : PropertyEntry) : List Char :=
  (e.lead owner ++ mark ++ ['\n']) ++ (typeLead ++ e.type.toList ++ ['\n'])

def itemLines (owner : String) (mark : List Char) (e : PropertyEntry) : List (List Char) :=
  (e.lead owner ++ mark) :: parts '\n' (typeLead ++ e.type.toList)

/-- An entry that is in one line but for the list items in its type. -/
structure PropertyEntry.IsNested (e : PropertyEntry) : Prop where
  name : IsUnbroken e.name
  type : IdlDocs.IsNested listItemDepth e.type.toList

/-- A line that is indented by a space is no item and no heading. -/
theorem not_isItem_of_blank (cs : List Char) :
    isItem (' ' :: cs) = false ∧ isHeading (' ' :: cs) = false := ⟨rfl, rfl⟩

theorem IsNestedItem.exists_blank {depth : Nat} {line : List Char} (hd : 0 < depth)
    (h : IsNestedItem depth line) : ∃ cs, line = ' ' :: cs := by
  obtain ⟨n, hn, t, rfl⟩ := h
  obtain ⟨m, rfl⟩ : ∃ m, n = m + 1 := ⟨n - 1, by omega⟩
  exact ⟨_, rfl⟩

section Item

variable {owner : String} {mark : List Char} {e : PropertyEntry}

theorem notMem_lead (howner : IsUnbroken owner) (hname : IsUnbroken e.name) :
    '\n' ∉ e.lead owner := by
  have href : IsUnbroken ("- " ++ pageReference (owner ++ "." ++ e.name)) :=
    .append (by decide)
      (isUnbroken_pageReference (.append (.append howner (by decide)) hname))
  unfold IsUnbroken at href
  rwa [String.toList_append] at href

theorem isLines_itemText (h : '\n' ∉ e.lead owner ++ mark) :
    IsLines (itemLines owner mark e) (itemText owner mark e) := by
  refine IsLines.append (.line h) ?_
  unfold IsLines
  rw [parts_append]
  rfl

theorem exists_typeLines (he : e.IsNested) : ∃ first more,
    parts '\n' e.type.toList = first :: more ∧
      parts '\n' (typeLead ++ e.type.toList) = (typeLead ++ first) :: more ∧
        ∀ line ∈ more, IsNestedItem listItemDepth line := by
  obtain ⟨first, more, hparts, hmore⟩ := he.type
  exact ⟨first, more, hparts, parts_append_of_notMem (by decide) hparts, hmore⟩

theorem itemizes_itemLines (he : e.IsNested) : Itemizes owner [e] (itemLines owner mark e) ∧
    ∀ line ∈ itemLines owner mark e, isHeading line = false := by
  obtain ⟨first, more, htype, hparts, hmore⟩ := exists_typeLines he
  have hrest : ∀ line ∈ (typeLead ++ first) :: more, ∃ cs, line = ' ' :: cs :=
    List.forall_mem_cons.2 ⟨⟨_, rfl⟩, fun line hl => (hmore line hl).exists_blank (by decide)⟩
  unfold itemLines
  rw [hparts]
  refine ⟨⟨?_, ?_⟩, List.forall_mem_cons.2 ⟨rfl, fun line hl => ?_⟩⟩
  · have hfilter : ((typeLead ++ first) :: more).filter isItem = [] :=
      List.filter_eq_nil_iff.2 fun line hl => by
        obtain ⟨cs, rfl⟩ := hrest line hl
        simp [not_isItem_of_blank cs]
    rw [List.filter_cons_of_pos rfl, hfilter]
    exact .cons (List.prefix_append _ _) .nil
  · refine List.forall_mem_singleton.2 ⟨first, more, htype, ?_, hmore⟩
    exact (List.suffix_cons _ _).isInfix
  · obtain ⟨cs, rfl⟩ := hrest line hl
    exact (not_isItem_of_blank cs).2

end Item

/-! ## The pieces of an item -/

def IsMark (p : Piece) : Prop := ∀ frames, ∃ text, p.render? frames = some text ∧ '\n' ∉ text

theorem isMark_ifTrue (key : String) {name : String} (h : IsUnbroken name) :
    IsMark (ifTrue key [.text " ", callMacro name []]) := by
  intro frames
  unfold ifTrue
  rw [Piece.render?]
  split
  · refine ⟨' ' :: ((macroCall name []).toList ++ []), ?_, ?_⟩
    · rw [renderAll?, renderAll?, renderAll?]
      rfl
    · have hcall : IsUnbroken (macroCall name []) :=
        isUnbroken_macroCall h fun arg harg => absurd harg List.not_mem_nil
      unfold IsUnbroken at hcall
      simpa using hcall
  · exact ⟨[], by rw [renderAll?], List.not_mem_nil⟩

theorem exists_marks {marks : List Piece} (h : ∀ p ∈ marks, IsMark p) (frames : List Frame) :
    ∃ text, renderAll? frames marks = some text ∧ '\n' ∉ text := by
  induction marks with
  | nil => exact ⟨[], by rw [renderAll?], List.not_mem_nil⟩
  | cons p marks ih =>
    rw [List.forall_mem_cons] at h
    obtain ⟨s, hs, hsn⟩ := h.1 frames
    obtain ⟨t, ht, htn⟩ := ih h.2
    refine ⟨s ++ t, renderAll?_cons_eq_some.2 ⟨s, t, hs, ht, rfl⟩, ?_⟩
    rw [List.mem_append, not_or]
    exact ⟨hsn, htn⟩

variable {owner key : String} {marks : List Piece} {data : Json}

theorem render_reference (hkey : member data key = .string owner) (e : PropertyEntry)
    {item : Frame} (hitem : item.value = e.toJson) :
    (refer [outerKey key, valueOf "name"]).render? [item, ⟨data, []⟩] =
      some (pageReference (owner ++ "." ++ e.name)).toList := by
  have howner : (outerKey key).eval [item, ⟨data, []⟩] = .string owner := hkey
  have hname : (valueOf "name").eval [item, ⟨data, []⟩] = .string e.name := by
    change member item.value "name" = _
    rw [hitem]
    rfl
  have htarget : ".".intercalate [owner, e.name] = owner ++ "." ++ e.name := by
    apply String.toList_inj.1
    rw [String.toList_intercalate, String.toList_append, String.toList_append]
    simp
  have hne : (owner ++ "." ++ e.name == "") = false := by
    rw [beq_eq_false_iff_ne]
    intro he
    have hlist := congrArg String.toList he
    rw [String.toList_append, String.toList_append] at hlist
    simp at hlist
  unfold refer
  rw [Piece.render?, List.map_cons, List.map_cons, howner, hname]
  change (referenceHelper [.string owner, .string e.name] .null).map String.toList = _
  unfold referenceHelper
  change (if (".".intercalate [owner, e.name] == "") = true then none
    else some (pageReference (".".intercalate [owner, e.name] ++ ""))).map String.toList = _
  rw [htarget, hne, String.append_empty]
  rfl

theorem exists_itemText (hkey : member data key = .string owner) (hmarks : ∀ p ∈ marks, IsMark p)
    (e : PropertyEntry) {item : Frame} (hitem : item.value = e.toJson) :
    ∃ mark, '\n' ∉ mark ∧
      renderAll? [item, ⟨data, []⟩] (itemOf key marks) = some (itemText owner mark e) := by
  obtain ⟨mark, hmark, hn⟩ := exists_marks hmarks [item, ⟨data, []⟩]
  have htype : renderAll? [item, ⟨data, []⟩] typeLine =
      some ('\n' :: (typeLead ++ e.type.toList ++ ['\n'])) := by
    have hvalue :
        valueText ((valueOf "formattedType").eval [item, ⟨data, []⟩]) = e.type.toList := by
      change valueText (member item.value "formattedType") = _
      rw [hitem]
      rfl
    unfold typeLine field
    rw [renderAll?, renderAll?, renderAll?, renderAll?, Piece.render?, Piece.render?, Piece.render?,
      hvalue]
    rfl
  refine ⟨mark, hn, ?_⟩
  unfold itemOf
  rw [List.append_assoc, renderAll?_append_eq_some]
  refine ⟨e.lead owner, _, ?_, renderAll?_append_eq_some.2 ⟨mark, _, hmark, htype, rfl⟩, ?_⟩
  · rw [renderAll?, renderAll?, renderAll?, render_reference hkey e hitem, Piece.render?]
    exact congrArg (fun t => some ("- ".toList ++ t)) (List.append_nil _)
  · unfold itemText
    simp

/-! ## Lists of items -/

theorem forall₂_itemFrames (es : List PropertyEntry) :
    List.Forall₂ (fun item e => item.value = e.toJson)
      (itemFrames (.array (es.map PropertyEntry.toJson))) es := by
  have hall : ∀ n, List.Forall₂ (fun (x : Json × Nat) (e : PropertyEntry) => x.1 = e.toJson)
      ((es.map PropertyEntry.toJson).zipIdx n) es := by
    induction es with
    | nil => exact fun n => .nil
    | cons e es ih => exact fun n => .cons rfl (ih (n + 1))
  unfold itemFrames
  exact List.forall₂_map_left_iff.2 (hall 0)

theorem exists_itemLines_of_frames (hkey : member data key = .string owner)
    (howner : IsUnbroken owner) (hmarks : ∀ p ∈ marks, IsMark p) {es : List PropertyEntry}
    (hes : ∀ e ∈ es, e.IsNested) {items : List Frame}
    (hitems : List.Forall₂ (fun item e => item.value = e.toJson) items es) :
    ∃ texts ls, items.mapM (fun item => renderAll? [item, ⟨data, []⟩] (itemOf key marks)) =
        some texts ∧
      IsLines ls texts.flatten ∧ Itemizes owner es ls ∧ ∀ line ∈ ls, isHeading line = false := by
  induction hitems with
  | nil =>
    exact ⟨[], [], rfl, .nil, .nothing fun line hl => absurd hl List.not_mem_nil,
      fun line hl => absurd hl List.not_mem_nil⟩
  | @cons item e items es hitem _ ih =>
    rw [List.forall_mem_cons] at hes
    obtain ⟨mark, hmark, htext⟩ := exists_itemText hkey hmarks e hitem
    obtain ⟨texts, ls, htexts, hlines, hls, hheadings⟩ := ih hes.2
    have hfirst : '\n' ∉ e.lead owner ++ mark := by
      rw [List.mem_append, not_or]
      exact ⟨notMem_lead howner hes.1.name, hmark⟩
    obtain ⟨hitemizes, hno⟩ : Itemizes owner [e] (itemLines owner mark e) ∧
        ∀ line ∈ itemLines owner mark e, isHeading line = false := itemizes_itemLines hes.1
    refine ⟨itemText owner mark e :: texts, itemLines owner mark e ++ ls, ?_, ?_,
      hitemizes.append hls, List.forall_mem_append.2 ⟨hno, hheadings⟩⟩
    · rw [List.mapM_cons, htext, htexts]
      rfl
    · exact (isLines_itemText hfirst).append hlines

/-- **The lines of a part that is repeated for entries**, if there are some. -/
theorem exists_itemLines (hkey : member data key = .string owner) (howner : IsUnbroken owner)
    (hmarks : ∀ p ∈ marks, IsMark p) {es : List PropertyEntry} (hne : es ≠ [])
    (hes : ∀ e ∈ es, e.IsNested) {list : Expr} {empty : List Piece}
    (hlist : itemFrames (list.eval [⟨data, []⟩]) =
      itemFrames (.array (es.map PropertyEntry.toJson))) :
    ∃ text ls, (Piece.repeat list (itemOf key marks) empty).render? [⟨data, []⟩] = some text ∧
      IsLines ls text ∧ Itemizes owner es ls ∧ ∀ line ∈ ls, isHeading line = false := by
  have hframes := forall₂_itemFrames es
  obtain ⟨texts, ls, htexts, hlines⟩ :=
    exists_itemLines_of_frames hkey howner hmarks hes hframes
  refine ⟨texts.flatten, ls, ?_, hlines⟩
  rw [Piece.render?, hlist]
  split
  · next hnone =>
    rw [hnone] at hframes
    cases hframes
    exact absurd rfl hne
  · rw [htexts]
    rfl

end IdlDocs
