import IdlDocs.Proofs.Description.Layout
import IdlDocs.Proofs.Description.Outline
import IdlDocs.Proofs.Idl.Words

/-!
# The words of descriptions

A description says what a type says, and what the dictionaries say that it is expanded into.
All of this has been read from source texts, where it is named in one line.

* `Description.Tells`: descriptions with unbroken words, in one line each, and with certain values.
* `inline_of_expansionOf`: the fields that a name shows.
* `tells_describe`: **the words in the description of a type are unbroken**, and its values are
  those of enumerations.
-/

namespace IdlDocs

open Idl Text

namespace Description

theorem mem_wordsOf {ds : List Description} {w : String} :
    w ∈ wordsOf ds ↔ ∃ d ∈ ds, w ∈ d.words := by
  induction ds with
  | nil => simp [wordsOf]
  | cons d ds ih => simp [wordsOf, ih]

theorem mem_valuesOf {ds : List Description} {v : String} :
    v ∈ valuesOf ds ↔ ∃ d ∈ ds, v ∈ d.values := by
  induction ds with
  | nil => simp [valuesOf]
  | cons d ds ih => simp [valuesOf, ih]

/-- A description with unbroken words and with certain values. -/
structure Tells (V : String → Prop) (d : Description) : Prop where
  words : ∀ w ∈ d.words, IsUnbroken w
  values : ∀ v ∈ d.values, V v

namespace Tells

variable {V : String → Prop} {d : Description} {ds : List Description}

theorem text {label : String} (h : IsUnbroken label) : Tells V (.text label) :=
  ⟨List.forall_mem_singleton.2 h, fun _ hv => absurd hv List.not_mem_nil⟩

theorem reference {name : String} (h : IsUnbroken name) : Tells V (.reference name) :=
  ⟨List.forall_mem_singleton.2 h, fun _ hv => absurd hv List.not_mem_nil⟩

theorem enumValues {vs : List String} (h : ∀ v ∈ vs, V v) : Tells V (.enumValues vs) :=
  ⟨fun _ hw => absurd hw List.not_mem_nil, h⟩

theorem oneOf (h : ∀ d ∈ ds, Tells V d) : Tells V (.oneOf ds) where
  words := by
    intro w hw
    obtain ⟨d, hd, hwd⟩ := mem_wordsOf.1 hw
    exact (h d hd).words w hwd
  values := by
    intro v hv
    obtain ⟨d, hd, hvd⟩ := mem_valuesOf.1 hv
    exact (h d hd).values v hvd

theorem keyValue {e : Description} (hd : Tells V d) (he : Tells V e) : Tells V (.keyValue d e) :=
  ⟨List.forall_mem_append.2 ⟨hd.words, he.words⟩, List.forall_mem_append.2 ⟨hd.values, he.values⟩⟩

theorem ofGeneric {kind : GenericKind} (hk : IsUnbroken kind.tag) (h : Tells V d) :
    Tells V (ofGeneric kind d) := by
  unfold Description.ofGeneric
  split
  · exact ⟨h.words, h.values⟩
  · split
    · exact ⟨h.words, h.values⟩
    · exact ⟨List.forall_mem_cons.2 ⟨hk, h.words⟩, h.values⟩

theorem ofFields {fields : List Field} (hf : ∀ f ∈ fields, IsUnbroken f.name)
    (h : ∀ d ∈ ds, Tells V d) : Tells V (ofFields fields ds) := by
  unfold Description.ofFields
  induction fields generalizing ds with
  | nil => exact ⟨fun _ hw => absurd hw List.not_mem_nil, fun _ hv => absurd hv List.not_mem_nil⟩
  | cons f fields ih =>
    cases ds with
    | nil => exact ⟨fun _ hw => absurd hw List.not_mem_nil, fun _ hv => absurd hv List.not_mem_nil⟩
    | cons d ds =>
      rw [List.forall_mem_cons] at hf h
      have hrest := ih hf.2 h.2
      exact ⟨List.forall_mem_cons.2 ⟨hf.1, List.forall_mem_append.2 ⟨h.1.words, hrest.words⟩⟩,
        List.forall_mem_append.2 ⟨h.1.values, hrest.values⟩⟩

end Tells

end Description

/-! ## What names show -/

theorem mem_of_mem_firstFields {fs : List Field} {f : Field} (h : f ∈ firstFields fs) : f ∈ fs := by
  induction fs with
  | nil => exact h
  | cons g fs ih =>
    rcases List.mem_cons.1 h with rfl | h
    · exact List.mem_cons_self
    · exact List.mem_cons_of_mem g (ih (List.mem_filter.1 h).1)

variable {l : Library} {r : Registry}

/-- The fields that a name shows are those of definitions. -/
theorem inline_of_expansionOf {name : String} {fields : List Field}
    (h : valueAt l r (expansionOf name) = .fields fields) : ∀ f ∈ fields, f.IsInline := by
  obtain ⟨fs, ⟨d, -, -, hp⟩, rfl⟩ := shows_of_expansionOf_fields h
  intro f hf
  obtain ⟨e, he, hfe⟩ := List.mem_flatMap.1 (mem_of_mem_firstFields hf)
  exact (inline_of_parse hp e he).fields f hfe

/-! ## Descriptions -/

theorem isUnbroken_of_basicLabel {name label : String} (h : basicLabel? name = some label) :
    IsUnbroken label := by
  unfold basicLabel? at h
  split at h <;> cases h <;> decide +kernel

def Expansion.enumValues : Expansion → List String
  | .values vs => vs
  | .fields _ | .closed => []

def Library.IsShownValue (l : Library) (r : Registry) (v : String) : Prop :=
  ∃ name, v ∈ (valueAt l r (expansionOf name)).enumValues

/-- By induction on the rules: the words of a description are those of the type, of the fields of
a dictionary, or of the descriptions that it is made of.  All of them are looked up at registries
that are alike to the first one. -/
theorem Describes.tells {r₀ : Registry} {chain : List String} {t : TypeExpr} {s : Registry}
    {d : Description} (h : Describes l chain t r d s) (hr : l.Alike r₀ r) (ht : t.IsInline) :
    d.Tells (l.IsShownValue r₀) := by
  induction h using @Describes.rec l _
    (fun _ ts r ds _ _ => l.Alike r₀ r → (∀ t ∈ ts, t.IsInline) →
      ∀ d ∈ ds, d.Tells (l.IsShownValue r₀)) with
  | basic hb => exact .text (isUnbroken_of_basicLabel hb)
  | within | closed => exact .reference (TypeExpr.isInline_named.1 ht)
  | @values _ name _ _ _ _ _ hx =>
    refine .enumValues fun v hv => ⟨name, ?_⟩
    rw [(hr.expansionOf hx).2]
    exact hv
  | fields _ _ hx _ ih =>
    obtain ⟨halike, hvalue⟩ := hr.expansionOf hx
    have hfields := inline_of_expansionOf hvalue
    refine .ofFields (fun f hf => (hfields f hf).1) (ih halike ?_)
    exact List.forall_mem_map.2 fun f hf => (hfields f hf).2
  | nullable _ ih => exact ih hr (TypeExpr.isInline_nullable.1 ht)
  | union _ ih => exact .oneOf (ih hr (TypeExpr.isInline_union.1 ht))
  | bare => exact .text (TypeExpr.isInline_generic.1 ht).1
  | generic _ _ ih =>
    obtain ⟨htag, hts⟩ := TypeExpr.isInline_generic.1 ht
    exact .ofGeneric htag (ih hr (hts _ List.mem_cons_self))
  | keyValue hfirst _ iht ihu =>
    have hts := (TypeExpr.isInline_generic.1 ht).2
    refine .keyValue (iht hr (hts _ List.mem_cons_self)) (ihu (hr.trans hfirst.reaches.1) ?_)
    exact hts _ (List.mem_cons_of_mem _ List.mem_cons_self)
  | nil _ _ d hd => exact absurd hd List.not_mem_nil
  | cons hfirst _ iht ihs hr hts d hd =>
    rw [List.forall_mem_cons] at hts
    rcases List.mem_cons.1 hd with rfl | hd
    · exact iht hr hts.1
    · exact ihs (hr.trans hfirst.reaches.1) hts.2 d hd

/-- **The words in the description of a type are unbroken**, where the type is named in one
line, and its values are those of enumerations that names show. -/
theorem tells_describe {t : TypeExpr} (ht : t.IsInline) {d : Description}
    (h : foundAt l r (describe t) = some d) : d.Tells (l.IsShownValue r) := by
  rw [foundAt_describe] at h
  obtain ⟨out, hout, rfl⟩ := Option.map_eq_some_iff.1 h
  exact (describes_of_describeType hout).tells (.refl l r) ht

end IdlDocs
