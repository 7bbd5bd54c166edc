import IdlDocs.Idl.Equality
import IdlDocs.Proofs.Description.Ends
import Mathlib.Data.List.Forall2

/-!
# The keys of dictionaries

A name that is no basic one, and whose document is that of a dictionary, is described by keys.
The text of the document is its own, then its extensions, then its mixins, and any number of
dictionaries in it may declare fields of one name: the first of these fields is the one that is
described.

* `names_firstFields`: **each name of a field has one key**, in the order of the first fields.
* `find?_of_mem_firstFields`: the field of a key is the first one with its name.
* `settles_describeAll_iff`: types in a row are described each on its own.
* `describe_dictionary`: **the description of a dictionary.**
-/

namespace IdlDocs

open Idl

/-! ## The first fields -/

theorem firstFields_filter (name : String) (fs : List Field) :
    firstFields (fs.filter (·.name != name)) = (firstFields fs).filter (·.name != name) := by
  induction fs with
  | nil => rfl
  | cons f fs ih =>
    rw [firstFields]
    by_cases hf : f.name = name
    · have hout : ¬(f.name != name) = true := by simpa using hf
      rw [List.filter_cons_of_neg (p := fun g : Field => g.name != name) hout,
        List.filter_cons_of_neg (p := fun g : Field => g.name != name) hout, ih, hf,
        List.filter_filter]
      simp only [Bool.and_self]
    · have hin : (f.name != name) = true := by simpa using hf
      rw [List.filter_cons_of_pos (p := fun g : Field => g.name != name) hin,
        List.filter_cons_of_pos (p := fun g : Field => g.name != name) hin, firstFields, ih,
        List.filter_filter, List.filter_filter]
      simp only [Bool.and_comm]

/-- **The first fields have each name once**, in the order in which the names occur first. -/
theorem names_firstFields (fs : List Field) :
    (firstFields fs).map (·.name) = (fs.map (·.name)).eraseDups := by
  induction hlen : fs.length using Nat.strong_induction_on generalizing fs with
  | _ n ih =>
    cases fs with
    | nil => rfl
    | cons f fs =>
      have hlt : (fs.filter (·.name != f.name)).length < n := by
        have hle := List.length_filter_le (fun g : Field => g.name != f.name) fs
        rw [List.length_cons] at hlen
        omega
      have hrest := ih _ hlt _ rfl
      rw [firstFields_filter] at hrest
      rw [firstFields, List.map_cons, List.map_cons, List.eraseDups_cons, hrest, List.filter_map]
      rfl

/-- **A field that is kept is the first one with its name.** -/
theorem find?_of_mem_firstFields {fs : List Field} {f : Field} (h : f ∈ firstFields fs) :
    fs.find? (·.name == f.name) = some f := by
  induction fs with
  | nil => cases h
  | cons g fs ih =>
    rw [firstFields, List.mem_cons, List.mem_filter] at h
    rcases h with rfl | ⟨hmem, hname⟩
    · exact List.find?_cons_of_pos (by simp)
    · rw [List.find?_cons_of_neg]
      · exact ih hmem
      · intro heq
        rw [bne_iff_ne] at hname
        exact hname (eq_of_beq heq).symm

/-! ## Types in a row -/

variable {l : Library} {r : Registry} {chain : List String}

theorem Library.Settles.exists_eq_some {α : Type} {a : Registry → Option (α × Registry)} {x : α}
    (h : l.Settles r a x) : ∃ s, a r = some (x, s) :=
  (h r (.refl l r)).imp fun _ hs => hs.1

theorem DescribesAll.settles {ts : List TypeExpr} {ds : List Description} {s : Registry}
    (h : DescribesAll l chain ts r ds s) :
    List.Forall₂ (fun t d => l.Settles r (describeType l chain t) d) ts ds := by
  induction ts generalizing r ds with
  | nil =>
    cases h with
    | nil => exact .nil
  | cons t ts ih =>
    cases h with
    | cons ht hts =>
      obtain ⟨halike, hfirst⟩ := ht.reaches
      exact .cons hfirst ((ih hts).imp fun _ _ hrest => hrest.of_alike halike.symm)

/-- **Types in a row are described each on its own.** -/
theorem settles_describeAll_iff {ts : List TypeExpr} {ds : List Description} :
    l.Settles r (describeAll l chain ts) ds ↔
      List.Forall₂ (fun t d => l.Settles r (describeType l chain t) d) ts ds := by
  refine ⟨fun h => ?_, describeAll_settles⟩
  obtain ⟨s, hs⟩ := h.exists_eq_some
  exact (describesAll_of_describeAll hs).settles

theorem settles_describeName_dictionary_iff {name : String} {fs : Fragments} {D : Description}
    (hb : basicLabel? name = none) (hc : name ∉ chain) (hs : l.Shows r name .dictionary fs) :
    l.Settles r (describeName l chain name) D ↔
      ∃ ds, D = .ofFields (firstFields (Fragments.fields fs)) ds ∧
        l.Settles r (describeAll l (chain ++ [name]) (shownTypes fs)) ds := by
  constructor
  · intro h
    obtain ⟨s, hd⟩ := h.exists_eq_some
    rw [describeName_expansion hb hc] at hd
    change describeExpansion l chain name
      (valueAt l r (expansionOf name), registryAfter l r (expansionOf name)) = _ at hd
    rw [valueAt_expansionOf_dictionary hs] at hd
    obtain ⟨p, hp, hout⟩ := Option.bind_eq_some_iff.1 hd
    cases hout
    have hsettles := (describesAll_of_describeAll hp).reaches.2
    exact ⟨p.1, rfl, hsettles.of_alike ((Steady.expansionOf name).alike l r)⟩
  · rintro ⟨ds, rfl, hds⟩
    refine describeName_settles hb hc ?_
    rw [valueAt_expansionOf_dictionary hs]
    exact hds.map _

/-! ## The keys -/

theorem map_fst_keys {R : Field → Description → Prop} {fields : List Field}
    {ds : List Description} (h : List.Forall₂ R fields ds) :
    (fields.zipWith (fun f d => (f.name, !f.required, d)) ds).map (·.1) =
      fields.map (·.name) := by
  induction h with
  | nil => rfl
  | cons _ _ ih => rw [List.zipWith_cons_cons, List.map_cons, List.map_cons, ih]

theorem exists_field_of_key {R : Field → Description → Prop} {fields : List Field}
    {ds : List Description} (h : List.Forall₂ R fields ds) {key : String × Bool × Description}
    (hkey : key ∈ fields.zipWith (fun f d => (f.name, !f.required, d)) ds) :
    ∃ f ∈ fields, key.1 = f.name ∧ key.2.1 = !f.required ∧ R f key.2.2 := by
  induction h with
  | nil => cases hkey
  | @cons f d _ _ hfd _ ih =>
    rw [List.zipWith_cons_cons] at hkey
    rcases List.mem_cons.1 hkey with rfl | hkey
    · exact ⟨f, List.mem_cons_self, rfl, rfl, hfd⟩
    · obtain ⟨g, hg, hall⟩ := ih hkey
      exact ⟨g, List.mem_cons_of_mem _ hg, hall⟩

theorem exists_forall₂_iff {α β : Type} {R : α → β → Prop} {as : List α} :
    (∃ bs, List.Forall₂ R as bs) ↔ ∀ a ∈ as, ∃ b, R a b := by
  induction as with
  | nil => exact ⟨fun _ => nofun, fun _ => ⟨[], .nil⟩⟩
  | cons a as ih =>
    rw [List.forall_mem_cons, ← ih]
    constructor
    · rintro ⟨bs, h⟩
      cases h with
      | cons hb hbs => exact ⟨⟨_, hb⟩, ⟨_, hbs⟩⟩
    · rintro ⟨⟨b, hb⟩, ⟨bs, hbs⟩⟩
      exact ⟨b :: bs, .cons hb hbs⟩

/-- **The description of a dictionary.**  A name that is no basic one and is not being expanded
already, and whose document is that of a dictionary and can be read, is described by keys: one for
each name of a field in any dictionary of the text, in the order in which the names occur first.
The key of a name may be missing unless the first field of that name is required, and its type is
the description of the type of that field.  The description comes to an end where those of the
types do, and it does so where fields name finitely many dictionaries. -/
theorem describe_dictionary {name : String} {d : Document} {fs : Fragments}
    (hb : basicLabel? name = none) (hc : name ∉ chain) (hd : l.documentAt r name = .ok d)
    (hk : d.kind = .dictionary)
    (hp : parse ("\n".intercalate (d.text :: (d.extensions ++ d.mixins.map (·.text)))) = .ok fs) :
    (∀ D s, describeType l chain (.named name) r = some (D, s) →
      ∃ keys, D = .dictionary keys ∧
        keys.map (·.1) = ((Fragments.fields fs).map (·.name)).eraseDups ∧
        ∀ key ∈ keys, ∃ f, (Fragments.fields fs).find? (·.name == key.1) = some f ∧
          key.2.1 = !f.required ∧
          ∃ s, describeType l (chain ++ [name]) f.type r = some (key.2.2, s)) ∧
    ((∃ out, describeType l chain (.named name) r = some out) ↔
      ∀ f ∈ firstFields (Fragments.fields fs),
        ∃ out, describeType l (chain ++ [name]) f.type r = some out) ∧
    ((l.namedDictionaries r).Finite →
      ∃ out, describeType l chain (.named name) r = some out) := by
  have hs : l.Shows r name .dictionary fs := ⟨d, hd, hk, hp⟩
  have hiff := fun D => settles_describeName_dictionary_iff (D := D) hb hc hs
  simp only [← describeType_named] at hiff
  refine ⟨?_, ?_, ?_⟩
  · intro D s hD
    obtain ⟨ds, rfl, hds⟩ := (hiff D).1 (describeType_settles hD).2
    have hall := settles_describeAll_iff.1 hds
    rw [shownTypes, List.forall₂_map_left_iff] at hall
    refine ⟨_, rfl, ?_, ?_⟩
    · rw [map_fst_keys hall, names_firstFields]
    · intro key hkey
      obtain ⟨f, hf, hname, hrequired, htype⟩ := exists_field_of_key hall hkey
      rw [hname]
      exact ⟨f, find?_of_mem_firstFields hf, hrequired, htype.exists_eq_some⟩
  · constructor
    · rintro ⟨⟨D, s⟩, hD⟩ f hf
      obtain ⟨ds, -, hds⟩ := (hiff D).1 (describeType_settles hD).2
      obtain ⟨e, he⟩ := exists_forall₂_iff.1 ⟨ds, settles_describeAll_iff.1 hds⟩ f.type
        (List.mem_map_of_mem hf)
      obtain ⟨s, hs⟩ := he.exists_eq_some
      exact ⟨_, hs⟩
    · intro h
      have hall : ∀ t ∈ shownTypes fs, ∃ e, l.Settles r (describeType l (chain ++ [name]) t) e := by
        intro t ht
        obtain ⟨f, hf, rfl⟩ := List.mem_map.1 ht
        obtain ⟨out, hout⟩ := h f hf
        exact ⟨out.1, (describeType_settles hout).2⟩
      obtain ⟨ds, hds⟩ := exists_forall₂_iff.2 hall
      obtain ⟨s, hs⟩ := ((hiff _).2 ⟨ds, rfl, settles_describeAll_iff.2 hds⟩).exists_eq_some
      exact ⟨_, hs⟩
  · intro hfin
    obtain ⟨o, ho⟩ := exists_outline_above hfin chain (.named name)
    obtain ⟨s, hs⟩ := ho.settles.exists_eq_some
    exact ⟨_, hs⟩

/-- A dictionary whose extension declares one of its fields again. -/
def extendedOptions : Document :=
  { Sample.document "Options" .dictionary "dictionary Options \x7b required long a; \x7d;" with
    extensions := ["partial dictionary Options \x7b DOMString b; DOMString a; \x7d;"] }

/-- The registry that keeps one document. -/
def keepingOnly (name : String) (d : Document) : Registry := { documents := [(name, d)] }

/-- The field that is declared again has one key, with the first type. -/
theorem describe_dictionary_extended :
    Library.documentAt ⟨.outside, {}⟩ (keepingOnly "Options" extendedOptions) "Options" =
      .ok extendedOptions ∧
    ∃ a b s, describeType ⟨.outside, {}⟩ [] (.named "Options")
      (keepingOnly "Options" extendedOptions) =
        some (.dictionary [("a", false, a), ("b", true, b)], s) := by
  have hp : parse ("\n".intercalate (extendedOptions.text ::
      (extendedOptions.extensions ++ extendedOptions.mixins.map (·.text)))) = .ok
        [.dictionary { name := "Options", fields := [⟨"a", .named "long", true⟩] },
          .dictionary { name := "Options", isPartial := true, fields :=
            [⟨"b", .named "DOMString", false⟩, ⟨"a", .named "DOMString", false⟩] }] := by
    decide +kernel
  have hfinite : Source.outside.texts.Finite := by
    refine Set.finite_empty.subset ?_
    rintro text ⟨location, h⟩
    cases h
  have hd : Library.documentAt ⟨.outside, {}⟩ (keepingOnly "Options" extendedOptions) "Options" =
      .ok extendedOptions := rfl
  refine ⟨hd, ?_⟩
  obtain ⟨hkeys, -, hends⟩ :=
    describe_dictionary (by decide +kernel) (List.not_mem_nil (a := "Options")) hd rfl hp
  obtain ⟨⟨D, s⟩, hD⟩ := hends (finite_namedDictionaries hfinite _)
  obtain ⟨keys, rfl, hnames, hfields⟩ := hkeys D s hD
  have hab : keys.map (·.1) = ["a", "b"] := hnames.trans (by decide +kernel)
  obtain ⟨⟨_, may, a⟩, keys, rfl, rfl, hb⟩ := List.map_eq_cons_iff.1 hab
  obtain ⟨⟨_, must, b⟩, keys, rfl, rfl, hnil⟩ := List.map_eq_cons_iff.1 hb
  obtain rfl := List.map_eq_nil_iff.1 hnil
  obtain ⟨f, hf, hmay, -⟩ := hfields _ List.mem_cons_self
  obtain ⟨g, hg, hmust, -⟩ := hfields _ (List.mem_cons_of_mem _ List.mem_cons_self)
  cases Option.some.inj hf
  cases Option.some.inj hg
  dsimp only at hmay hmust
  subst hmay hmust
  exact ⟨a, b, s, hD⟩

/-- A dictionary with the name of a basic type. -/
def objectDictionary : Document :=
  Sample.document "object" .dictionary "dictionary object \x7b long a; \x7d;"

/-- **A basic name is described by its label**, also where its document is that of a dictionary. -/
theorem basic_dictionary_not_expanded :
    Library.documentAt ⟨.outside, {}⟩ (keepingOnly "object" objectDictionary) "object" =
      .ok objectDictionary ∧
    objectDictionary.kind = .dictionary ∧
    (∃ fs, parse objectDictionary.combined = .ok fs ∧
      (Fragments.fields fs).map (·.name) = ["a"]) ∧
    ∀ keys, foundAt ⟨.outside, {}⟩ (keepingOnly "object" objectDictionary)
      (describe (.named "object")) ≠ some (.dictionary keys) := by
  have hp : parse objectDictionary.combined = .ok
      [.dictionary { name := "object", fields := [⟨"a", .named "long", false⟩] }] := by
    decide +kernel
  have hD : foundAt ⟨.outside, {}⟩ (keepingOnly "object" objectDictionary)
      (describe (.named "object")) = some (.text "object") :=
    (describe_of_outlines (.basic rfl)).choose_spec.2
  refine ⟨rfl, rfl, ⟨_, hp, rfl⟩, ?_⟩
  intro keys hkeys
  rw [hD] at hkeys
  cases hkeys

end IdlDocs
