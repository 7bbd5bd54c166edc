import IdlDocs.Proofs.Description.Steady
import Mathlib.Data.List.Forall2

/-!
# Outlines

An **outline** is a description that keeps the names which it expands.  Which outline a type
has is said by rules, one for each form of types and four for names: a basic name has a
label, a name within its own expansion and a name that nothing can be said about are
references, and every other name shows its fields or its values.

* `Outline.description`: the description, without the names of what is expanded.
* `Outline.paths`, `Outline.references`: the dictionaries on the way to each part, and the
  references with the dictionaries around them.
* `Outlines`: **the rules.**
* `Outlines.settles`: where a type has an outline, its description comes to an end, and it is
  that of the outline.
* `Outlines.nodup`, `Outlines.reference`: no dictionary is within itself, and a name is a
  reference only where the rules say so.
-/

namespace IdlDocs

open Idl

/-- A description that keeps the names of what it expands. -/
inductive Outline
  | text (label : String)
  | reference (name : String)
  | enumValues (name : String) (values : List String)
  /-- A dictionary, with its fields and the outlines of their types. -/
  | dictionary (name : String) (fields : List Field) (types : List Outline)
  | oneOf (members : List Outline)
  | generic (kind : GenericKind) (inner : Outline)
  | keyValue (key value : Outline)

namespace Outline

mutual

/-- The description without the names of what is expanded. -/
def description : Outline → Description
  | text label => .text label
  | reference name => .reference name
  | enumValues _ values => .enumValues values
  | dictionary _ fields types => .ofFields fields (descriptions types)
  | oneOf members => .oneOf (descriptions members)
  | generic kind inner => .ofGeneric kind inner.description
  | keyValue key value => .keyValue key.description value.description

def descriptions : List Outline → List Description
  | [] => []
  | o :: os => o.description :: descriptions os

end

mutual

/-- For each part of an outline the names of the dictionaries on the way to it, from the
outermost one on, its own included. -/
def paths : Outline → List (List String)
  | text _ | reference _ | enumValues _ _ => [[]]
  | dictionary name _ types => [name] :: (pathsOf types).map (name :: ·)
  | oneOf members => [] :: pathsOf members
  | generic _ inner => [] :: inner.paths
  | keyValue key value => [] :: key.paths ++ value.paths

def pathsOf : List Outline → List (List String)
  | [] => []
  | o :: os => o.paths ++ pathsOf os

end

mutual

/-- The references in an outline, each with the dictionaries that it is within. -/
def references (above : List String) : Outline → List (List String × String)
  | reference name => [(above, name)]
  | text _ | enumValues _ _ => []
  | dictionary name _ types => referencesOf (above ++ [name]) types
  | oneOf members => referencesOf above members
  | generic _ inner => inner.references above
  | keyValue key value => key.references above ++ value.references above

def referencesOf (above : List String) : List Outline → List (List String × String)
  | [] => []
  | o :: os => o.references above ++ referencesOf above os

end

theorem mem_pathsOf {os : List Outline} {path : List String} :
    path ∈ pathsOf os ↔ ∃ o ∈ os, path ∈ o.paths := by
  induction os with
  | nil => simp [pathsOf]
  | cons o os ih => simp [pathsOf, ih]

theorem mem_referencesOf {os : List Outline} {above : List String} {x : List String × String} :
    x ∈ referencesOf above os ↔ ∃ o ∈ os, x ∈ o.references above := by
  induction os with
  | nil => simp [referencesOf]
  | cons o os ih => simp [referencesOf, ih]

end Outline

/-! ## What names show -/

def Library.Shows (l : Library) (r : Registry) (name : String) (kind : DocumentKind)
    (fs : Fragments) : Prop :=
  ∃ d, l.documentAt r name = .ok d ∧ d.kind = kind ∧ parse d.combined = .ok fs

/-- A name has fields or values to show: its document is there and can be read, and it is a
dictionary, or an enumeration that the document holds. -/
def Library.IsExpandable (l : Library) (r : Registry) (name : String) : Prop :=
  ∃ fs, l.Shows r name .dictionary fs ∨
    l.Shows r name .enumeration fs ∧ ∃ values, Fragments.enumValues? fs = some values

theorem valueAt_expansionOf (l : Library) (r : Registry) (name : String) :
    valueAt l r (expansionOf name) =
      match l.documentAt r name with
      | .ok d => d.expansion
      | .error _ => .closed := by
  unfold expansionOf
  rw [valueAt_then]
  change valueAt l _ (match outcomeAt l r (Registry.document name) with
    | .ok d => pure d.expansion
    | .error _ => pure .closed) = _
  rw [outcomeAt_document]
  cases l.documentAt r name <;> rfl

variable {l : Library} {r : Registry}

theorem valueAt_expansionOf_dictionary {name : String} {fs : Fragments}
    (h : l.Shows r name .dictionary fs) :
    valueAt l r (expansionOf name) = .fields (firstFields (Fragments.fields fs)) := by
  obtain ⟨d, hd, hk, hp⟩ := h
  rw [valueAt_expansionOf, hd]
  simp only [Document.expansion, hk, hp]

theorem valueAt_expansionOf_enumeration {name : String} {fs : Fragments} {values : List String}
    (h : l.Shows r name .enumeration fs) (hv : Fragments.enumValues? fs = some values) :
    valueAt l r (expansionOf name) = .values values := by
  obtain ⟨d, hd, hk, hp⟩ := h
  rw [valueAt_expansionOf, hd]
  simp only [Document.expansion, hk, hp, hv, Option.elim_some]

theorem valueAt_expansionOf_closed {name : String} (h : ¬l.IsExpandable r name) :
    valueAt l r (expansionOf name) = .closed := by
  rw [valueAt_expansionOf]
  cases hd : l.documentAt r name with
  | error e => rfl
  | ok d =>
    dsimp only
    unfold Document.expansion
    cases hp : parse d.combined with
    | error e => cases d.kind <;> rfl
    | ok fs =>
      cases hk : d.kind with
      | dictionary => exact absurd ⟨fs, .inl ⟨d, hd, hk, hp⟩⟩ h
      | enumeration =>
        cases hv : Fragments.enumValues? fs with
        | none => simp only [hv, Option.elim_none]
        | some values => exact absurd ⟨fs, .inr ⟨⟨d, hd, hk, hp⟩, values, hv⟩⟩ h
      | _ => rfl

/-! Conversely, what is shown of a name says what its document is. -/

theorem not_isExpandable_of_expansionOf {name : String}
    (h : valueAt l r (expansionOf name) = .closed) : ¬l.IsExpandable r name := by
  rintro ⟨fs, hs | ⟨hs, values, hv⟩⟩
  · cases (valueAt_expansionOf_dictionary hs).symm.trans h
  · cases (valueAt_expansionOf_enumeration hs hv).symm.trans h

theorem shows_of_expansionOf_fields {name : String} {fields : List Field}
    (h : valueAt l r (expansionOf name) = .fields fields) :
    ∃ fs, l.Shows r name .dictionary fs ∧ firstFields (Fragments.fields fs) = fields := by
  by_cases he : l.IsExpandable r name
  · obtain ⟨fs, hs | ⟨hs, values, hv⟩⟩ := he
    · cases (valueAt_expansionOf_dictionary hs).symm.trans h
      exact ⟨fs, hs, rfl⟩
    · cases (valueAt_expansionOf_enumeration hs hv).symm.trans h
  · cases (valueAt_expansionOf_closed he).symm.trans h

theorem shows_of_expansionOf_values {name : String} {values : List String}
    (h : valueAt l r (expansionOf name) = .values values) :
    ∃ fs, l.Shows r name .enumeration fs ∧ Fragments.enumValues? fs = some values := by
  by_cases he : l.IsExpandable r name
  · obtain ⟨fs, hs | ⟨hs, values, hv⟩⟩ := he
    · cases (valueAt_expansionOf_dictionary hs).symm.trans h
    · cases (valueAt_expansionOf_enumeration hs hv).symm.trans h
      exact ⟨fs, hs, hv⟩
  · cases (valueAt_expansionOf_closed he).symm.trans h

/-! ## The rules -/

/-- In lists of one length what stands in the second one has something beside it. -/
theorem exists_mem_zip {α β : Type} {xs : List α} {ys : List β} (h : ys.length = xs.length)
    {y : β} (hy : y ∈ ys) : ∃ x, (x, y) ∈ xs.zip ys := by
  rw [← List.map_snd_zip (Nat.le_of_eq h)] at hy
  obtain ⟨⟨x, _⟩, hp, rfl⟩ := List.mem_map.1 hy
  exact ⟨x, hp⟩

def shownTypes (fs : Fragments) : List TypeExpr :=
  (firstFields (Fragments.fields fs)).map (·.type)

/-- The outline of a type within the dictionaries `above`. -/
inductive Outlines (l : Library) (r : Registry) : List String → TypeExpr → Outline → Prop
  | basic {above name label} (hb : basicLabel? name = some label) :
    Outlines l r above (.named name) (.text label)
  /-- A name that is being expanded or has nothing to show. -/
  | reference {above name} (hb : basicLabel? name = none)
    (h : name ∈ above ∨ ¬l.IsExpandable r name) :
    Outlines l r above (.named name) (.reference name)
  | enumValues {above name fs values} (hb : basicLabel? name = none) (hn : name ∉ above)
    (hs : l.Shows r name .enumeration fs) (hv : Fragments.enumValues? fs = some values) :
    Outlines l r above (.named name) (.enumValues name values)
  | dictionary {above name fs types} (hb : basicLabel? name = none) (hn : name ∉ above)
    (hs : l.Shows r name .dictionary fs)
    (hlen : types.length = (shownTypes fs).length)
    (h : ∀ p ∈ (shownTypes fs).zip types, Outlines l r (above ++ [name]) p.1 p.2) :
    Outlines l r above (.named name)
      (.dictionary name (firstFields (Fragments.fields fs)) types)
  | nullable {above t o} (h : Outlines l r above t o) : Outlines l r above (.nullable t) o
  | union {above ts os} (hlen : os.length = ts.length)
    (h : ∀ p ∈ ts.zip os, Outlines l r above p.1 p.2) :
    Outlines l r above (.union ts) (.oneOf os)
  | bare {above kind} : Outlines l r above (.generic kind []) (.text kind.tag)
  /-- A generic type shows its first argument. -/
  | generic {above kind t ts o} (hk : kind = .record → ts = []) (h : Outlines l r above t o) :
    Outlines l r above (.generic kind (t :: ts)) (.generic kind o)
  /-- A map with two arguments shows both. -/
  | keyValue {above t u ts o p} (ht : Outlines l r above t o) (hu : Outlines l r above u p) :
    Outlines l r above (.generic .record (t :: u :: ts)) (.keyValue o p)

/-! ## The description of an outline -/

theorem describeAll_settles {above : List String} {ts : List TypeExpr} {ds : List Description}
    (h : List.Forall₂ (fun t d => l.Settles r (describeType l above t) d) ts ds) :
    l.Settles r (describeAll l above ts) ds := by
  induction h with
  | nil =>
    rw [describeAll_nil]
    exact .done []
  | @cons t d ts ds hfirst _ ih =>
    rw [describeAll_cons]
    exact .andThen hfirst (ih.map (d :: ·))

theorem Outline.descriptions_eq_map (os : List Outline) :
    Outline.descriptions os = os.map Outline.description := by
  induction os with
  | nil => rfl
  | cons o os ih => rw [Outline.descriptions, ih, List.map_cons]

theorem describeAll_outlines {above : List String} {ts : List TypeExpr} {os : List Outline}
    (hlen : os.length = ts.length)
    (h : ∀ p ∈ ts.zip os, l.Settles r (describeType l above p.1) p.2.description) :
    l.Settles r (describeAll l above ts) (Outline.descriptions os) := by
  refine describeAll_settles ?_
  rw [Outline.descriptions_eq_map, List.forall₂_map_right_iff, List.forall₂_iff_zip]
  exact ⟨hlen.symm, fun {t o} hmem => h (t, o) hmem⟩

theorem describeName_settles {above : List String} {name : String} {d : Description}
    (hb : basicLabel? name = none) (hn : name ∉ above)
    (h : l.Settles r (fun s =>
      describeExpansion l above name (valueAt l r (expansionOf name), s)) d) :
    l.Settles r (describeName l above name) d := by
  rw [describeName_expansion hb hn]
  exact .andThen (.run (.expansionOf name)) h

namespace Outlines

/-- **Where a type has an outline, its description comes to an end**, and it is that of the
outline. -/
theorem settles {above : List String} {t : TypeExpr} {o : Outline}
    (h : Outlines l r above t o) : l.Settles r (describeType l above t) o.description := by
  induction h with
  | basic hb =>
    rw [describeType_named, describeName_basic hb]
    exact .done _
  | @reference above name hb h =>
    rw [describeType_named]
    by_cases hn : name ∈ above
    · rw [describeName_within hb hn]
      exact .done _
    · refine describeName_settles hb hn ?_
      rw [valueAt_expansionOf_closed (h.resolve_left hn)]
      exact .done _
  | enumValues hb hn hs hv =>
    rw [describeType_named]
    refine describeName_settles hb hn ?_
    rw [valueAt_expansionOf_enumeration hs hv]
    exact .done _
  | dictionary hb hn hs hlen _ ih =>
    rw [describeType_named]
    refine describeName_settles hb hn ?_
    rw [valueAt_expansionOf_dictionary hs]
    exact (describeAll_outlines hlen ih).map (Description.ofFields _)
  | nullable _ ih => rw [describeType_nullable]; exact ih
  | union hlen _ ih =>
    rw [describeType_union]
    exact (describeAll_outlines hlen ih).map Description.oneOf
  | bare =>
    rw [describeType_generic, describeGeneric_nil]
    exact .done _
  | @generic above kind t ts o hk _ ih =>
    rw [describeType_generic, describeGeneric_first hk]
    exact ih.map (Description.ofGeneric kind)
  | @keyValue above t u ts o p _ _ iht ihu =>
    rw [describeType_generic, describeGeneric_record]
    refine .andThen iht ?_
    exact ihu.map (Description.keyValue o.description)

/-- The dictionaries on the way to a part of an outline are distinct, and none of them is
among those around the outline. -/
theorem nodup {above : List String} {t : TypeExpr} {o : Outline} (h : Outlines l r above t o)
    (ha : above.Nodup) : ∀ path ∈ o.paths, (above ++ path).Nodup := by
  induction h with
  | basic | reference | enumValues | bare =>
    intro path hp
    rw [List.mem_singleton.1 hp, List.append_nil]
    exact ha
  | @dictionary above name fs types hb hn hs hlen _ ih =>
    have hname : (above ++ [name]).Nodup :=
      List.nodup_append.2 ⟨ha, by simp, by grind⟩
    intro path hp
    rcases List.mem_cons.1 hp with rfl | hp
    · exact hname
    · obtain ⟨rest, hrest, rfl⟩ := List.mem_map.1 hp
      obtain ⟨o, ho, hpath⟩ := Outline.mem_pathsOf.1 hrest
      obtain ⟨f, hf⟩ := exists_mem_zip hlen ho
      have := ih _ hf hname rest hpath
      rwa [List.append_assoc] at this
  | nullable _ ih => exact ih ha
  | union hlen _ ih =>
    intro path hp
    rcases List.mem_cons.1 hp with rfl | hp
    · rwa [List.append_nil]
    · obtain ⟨o, ho, hpath⟩ := Outline.mem_pathsOf.1 hp
      obtain ⟨t, ht⟩ := exists_mem_zip hlen ho
      exact ih _ ht ha path hpath
  | generic _ _ ih =>
    intro path hp
    rcases List.mem_cons.1 hp with rfl | hp
    · rwa [List.append_nil]
    · exact ih ha path hp
  | keyValue _ _ iht ihu =>
    intro path hp
    rcases List.mem_cons.1 hp with rfl | hp
    · rwa [List.append_nil]
    · rcases List.mem_append.1 hp with hp | hp
      · exact iht ha path hp
      · exact ihu ha path hp

/-- **A name is a reference only where it is being expanded or has nothing to show.** -/
theorem reference_of_mem {above : List String} {t : TypeExpr} {o : Outline}
    (h : Outlines l r above t o) : ∀ x ∈ o.references above,
      basicLabel? x.2 = none ∧ (x.2 ∈ x.1 ∨ ¬l.IsExpandable r x.2) := by
  induction h with
  | basic | enumValues | bare => exact fun x hx => nomatch hx
  | reference hb h =>
    intro x hx
    rw [List.mem_singleton.1 hx]
    exact ⟨hb, h⟩
  | dictionary _ _ _ hlen _ ih =>
    intro x hx
    obtain ⟨o, ho, hx⟩ := Outline.mem_referencesOf.1 hx
    obtain ⟨f, hf⟩ := exists_mem_zip hlen ho
    exact ih _ hf x hx
  | nullable _ ih => exact ih
  | union hlen _ ih =>
    intro x hx
    obtain ⟨o, ho, hx⟩ := Outline.mem_referencesOf.1 hx
    obtain ⟨t, ht⟩ := exists_mem_zip hlen ho
    exact ih _ ht x hx
  | generic _ _ ih => exact ih
  | keyValue _ _ iht ihu =>
    intro x hx
    rcases List.mem_append.1 hx with hx | hx
    · exact iht x hx
    · exact ihu x hx

end Outlines

end IdlDocs
