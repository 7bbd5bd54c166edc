import IdlDocs.Proofs.Composed
import IdlDocs.Proofs.Description.Outline
import IdlDocs.Registry.Sample
import Mathlib.Data.Finset.Card
import Mathlib.Data.Set.Finite.Lattice

/-!
# Where describing comes to an end

A dictionary is not expanded within itself, so that the dictionaries around a type are
distinct, and each expansion leaves fewer of them.  Describing therefore comes to an end
wherever the names that fields mention are dictionaries for finitely many of them.

* `exists_outline_above`: a type has an outline where fields mention finitely many dictionaries.
* `describe_comes_to_an_end`: **where finitely many names are dictionaries**, every
  description comes to an end, expands no dictionary within itself, and stops at a reference
  only where it has to.
* `exists_outline_of_memory`, `exists_outline_of_directory`: so it does in memory and in a copy
  in a directory, which have finitely many texts.
* `Ends.exists_found`: and so does every search that is put together from descriptions.
-/

namespace IdlDocs

open Idl

/-! ## The names in types -/

namespace Idl.TypeExpr

mutual

def names : TypeExpr → List String
  | named name => [name]
  | nullable inner => inner.names
  | union members => namesOf members
  | generic _ args => namesOf args

def namesOf : List TypeExpr → List String
  | [] => []
  | t :: ts => t.names ++ namesOf ts

end

theorem mem_namesOf {t : TypeExpr} {ts : List TypeExpr} (h : t ∈ ts) {name : String}
    (hn : name ∈ t.names) : name ∈ namesOf ts := by
  induction ts with
  | nil => cases h
  | cons u ts ih =>
    rcases List.mem_cons.1 h with rfl | h
    · exact List.mem_append_left _ hn
    · exact List.mem_append_right _ (ih h)

end Idl.TypeExpr

/-! ## Outlines of types from outlines of names -/

variable {l : Library} {r : Registry}

theorem exists_outlines {above : List String} {ts : List TypeExpr}
    (h : ∀ t ∈ ts, ∃ o, Outlines l r above t o) :
    ∃ os : List Outline, os.length = ts.length ∧
      ∀ p ∈ ts.zip os, Outlines l r above p.1 p.2 := by
  induction ts with
  | nil => exact ⟨[], rfl, nofun⟩
  | cons t ts ih =>
    obtain ⟨o, ho⟩ := h t List.mem_cons_self
    obtain ⟨os, hlen, hos⟩ := ih fun u hu => h u (List.mem_cons_of_mem t hu)
    refine ⟨o :: os, congrArg (· + 1) hlen, fun p hp => ?_⟩
    rcases List.mem_cons.1 hp with rfl | hp
    · exact ho
    · exact hos p hp

theorem exists_outline_of_names {above : List String} :
    (t : TypeExpr) → (∀ n ∈ t.names, ∃ o, Outlines l r above (.named n) o) →
      ∃ o, Outlines l r above t o
  | .named n, h => h n (List.mem_singleton.2 rfl)
  | .nullable t, h => (exists_outline_of_names t h).imp fun _ => .nullable
  | .union ts, h => by
    obtain ⟨os, hlen, hos⟩ := exists_outlines fun t ht =>
      exists_outline_of_names t fun n hn => h n (TypeExpr.mem_namesOf ht hn)
    exact ⟨.oneOf os, .union hlen hos⟩
  | .generic kind ts, h => by
    have hts : ∀ t ∈ ts, ∃ o, Outlines l r above t o := fun t ht =>
      exists_outline_of_names t fun n hn => h n (TypeExpr.mem_namesOf ht hn)
    match ts, hts with
    | [], _ => exact ⟨_, .bare⟩
    | [t], hts =>
      obtain ⟨o, ho⟩ := hts t List.mem_cons_self
      exact ⟨_, .generic (fun _ => rfl) ho⟩
    | t :: u :: ts, hts =>
      obtain ⟨o, ho⟩ := hts t List.mem_cons_self
      by_cases hk : kind = .record
      · obtain ⟨p, hp⟩ := hts u (List.mem_cons_of_mem t List.mem_cons_self)
        subst hk
        exact ⟨_, .keyValue ho hp⟩
      · exact ⟨_, .generic (fun h => absurd h hk) ho⟩

/-- A name has an outline if it is not a dictionary, or the types of its fields have
outlines within it. -/
theorem exists_outline_named {above : List String} {name : String}
    (h : name ∉ above → ∀ fs, l.Shows r name .dictionary fs →
      ∀ t ∈ shownTypes fs, ∃ o, Outlines l r (above ++ [name]) t o) :
    ∃ o, Outlines l r above (.named name) o := by
  cases hb : basicLabel? name with
  | some label => exact ⟨_, .basic hb⟩
  | none =>
    by_cases hr : name ∈ above ∨ ¬l.IsExpandable r name
    · exact ⟨_, .reference hb hr⟩
    · rw [not_or, not_not] at hr
      obtain ⟨hn, fs, hs | ⟨hs, values, hv⟩⟩ := hr
      · obtain ⟨os, hlen, hos⟩ := exists_outlines (h hn fs hs)
        exact ⟨_, .dictionary hb hn hs hlen hos⟩
      · exact ⟨_, .enumValues hb hn hs hv⟩

/-! ## Finitely many dictionaries -/

/-- The document of a name is there, and it is that of a dictionary. -/
def Library.IsDictionary (l : Library) (r : Registry) (name : String) : Prop :=
  ∃ d, l.documentAt r name = .ok d ∧ d.kind = .dictionary

theorem Library.Shows.isDictionary {name : String} {fs : Fragments}
    (h : l.Shows r name .dictionary fs) : l.IsDictionary r name :=
  h.imp fun _ hd => ⟨hd.1, hd.2.1⟩

/-- The dictionaries that the types in dictionaries name. -/
def Library.namedDictionaries (l : Library) (r : Registry) : Set String :=
  {name | l.IsDictionary r name ∧
    ∃ other fs, l.Shows r other .dictionary fs ∧ ∃ t ∈ shownTypes fs, name ∈ t.names}

theorem card_sdiff_append_lt {s : Finset String} {above : List String} {name : String}
    (hs : name ∈ s) (hn : name ∉ above) :
    (s \ (above ++ [name]).toFinset).card < (s \ above.toFinset).card := by
  have hsub : s \ (above ++ [name]).toFinset ⊆ s \ above.toFinset :=
    Finset.sdiff_subset_sdiff subset_rfl fun m hm =>
      List.mem_toFinset.2 (List.mem_append_left _ (List.mem_toFinset.1 hm))
  refine Finset.card_lt_card ((Finset.ssubset_iff_of_subset hsub).2 ⟨name, ?_, ?_⟩)
  · exact Finset.mem_sdiff.2 ⟨hs, fun h => hn (List.mem_toFinset.1 h)⟩
  · exact fun h => (Finset.mem_sdiff.1 h).2 (List.mem_toFinset.2 (by simp))

/-- By induction on how many dictionaries are not around the type: each one that is expanded
is a new one. -/
theorem exists_outline_within {s : Finset String} (hs : l.namedDictionaries r ⊆ s)
    (above : List String) (t : TypeExpr) (ht : ∀ n ∈ t.names, l.IsDictionary r n → n ∈ s) :
    ∃ o, Outlines l r above t o := by
  induction hk : (s \ above.toFinset).card using Nat.strong_induction_on
    generalizing above t with
  | _ k ih =>
    refine exists_outline_of_names t fun n hn => exists_outline_named fun hna fs hsh u hu => ?_
    have hlt := card_sdiff_append_lt (ht n hn hsh.isDictionary) hna
    rw [hk] at hlt
    exact ih _ hlt _ u (fun m hm hd => hs ⟨hd, n, fs, hsh, u, hu, hm⟩) rfl

/-- **A type has an outline where fields name finitely many dictionaries**, within any
dictionaries. -/
theorem exists_outline_above (hfin : (l.namedDictionaries r).Finite) (above : List String)
    (t : TypeExpr) : ∃ o, Outlines l r above t o := by
  -- The names in the type itself need not be among those in fields.
  refine exists_outline_of_names t fun n _ => exists_outline_named fun _ fs hsh u hu => ?_
  refine exists_outline_within (s := hfin.toFinset) hfin.coe_toFinset.ge _ u ?_
  exact fun m hm hd => hfin.mem_toFinset.2 ⟨hd, n, fs, hsh, u, hu, hm⟩

theorem exists_outline (hfin : (l.namedDictionaries r).Finite) (t : TypeExpr) :
    ∃ o, Outlines l r [] t o :=
  exists_outline_above hfin [] t

theorem describe_of_outlines {t : TypeExpr} {o : Outline} (h : Outlines l r [] t o) :
    ∃ s, describeType l [] t r = some (o.description, s) ∧
      foundAt l r (describe t) = some o.description := by
  obtain ⟨s, hs, _⟩ := h.settles r (.refl l r)
  refine ⟨s, hs, ?_⟩
  rw [foundAt_describe, hs]
  rfl

/-- **Where finitely many names are dictionaries, every description comes to an end.**  It is
that of an outline, which no dictionary is within itself in, and in which a name is a
reference only where it is being expanded or has nothing to show. -/
theorem describe_comes_to_an_end (hfin : {name | l.IsDictionary r name}.Finite)
    (t : TypeExpr) :
    ∃ (o : Outline) (s : Registry),
      describeType l [] t r = some (o.description, s) ∧
      foundAt l r (describe t) = some o.description ∧
      Outlines l r [] t o ∧
      (∀ path ∈ o.paths, path.Nodup) ∧
      ∀ x ∈ o.references [],
        basicLabel? x.2 = none ∧ (x.2 ∈ x.1 ∨ ¬l.IsExpandable r x.2) := by
  have hnamed : (l.namedDictionaries r).Finite := hfin.subset fun _ h => h.1
  obtain ⟨o, ho⟩ := exists_outline hnamed t
  obtain ⟨s, hs, hv⟩ := describe_of_outlines ho
  exact ⟨o, s, hs, hv, ho, ho.nodup List.nodup_nil, ho.reference_of_mem⟩

theorem describe_comes_to_an_end_sample :
    ∃ (o : Outline) (s : Registry),
      describeType { source := .outside } [] (.named "TreeNodeInit") Sample.loaded =
        some (o.description, s) ∧
      foundAt { source := .outside } Sample.loaded (describe (.named "TreeNodeInit")) =
        some o.description ∧
      Outlines { source := .outside } Sample.loaded [] (.named "TreeNodeInit") o ∧
      (∀ path ∈ o.paths, path.Nodup) ∧
      ∀ x ∈ o.references [], basicLabel? x.2 = none ∧
        (x.2 ∈ x.1 ∨ ¬Library.IsExpandable { source := .outside } Sample.loaded x.2) := by
  refine describe_comes_to_an_end ?_ _
  refine (List.finite_toSet (Sample.documents.map (·.1))).subset ?_
  rintro name ⟨d, hd, _⟩
  rcases Library.kept_or_read_of_documentAt hd with hk | ⟨location, text, ht, _⟩
  · exact List.mem_map.2 ⟨_, Source.mem_of_lookup hk, rfl⟩
  · cases ht

/-! ## Finitely many texts -/

def Document.namesShown (d : Document) : List String :=
  match parse d.combined with
  | .ok fs => (shownTypes fs).flatMap TypeExpr.names
  | .error _ => []

def Source.texts (s : Source) : Set String := {text | ∃ location, s.answer location = .ok text}

theorem finite_documents (h : l.source.texts.Finite) (r : Registry) :
    {d | ∃ name, l.documentAt r name = .ok d}.Finite := by
  have hread : {d | some d ∈ (fun text => (Json.parse? text).bind Document.ofJson?) ''
      l.source.texts}.Finite :=
    (h.image _).preimage (Option.some_injective _).injOn
  refine ((List.finite_toSet (r.documents.map (·.2))).union hread).subset ?_
  rintro d ⟨name, hd⟩
  rcases Library.kept_or_read_of_documentAt hd with hk | ⟨location, text, ht, hd⟩
  · exact .inl (List.mem_map.2 ⟨_, Source.mem_of_lookup hk, rfl⟩)
  · exact .inr ⟨text, ⟨location, ht⟩, hd⟩

theorem finite_namedDictionaries (h : l.source.texts.Finite) (r : Registry) :
    (l.namedDictionaries r).Finite := by
  have hnames : (⋃ d ∈ {d | ∃ name, l.documentAt r name = .ok d},
      {name | name ∈ Document.namesShown d}).Finite :=
    (finite_documents h r).biUnion fun d _ => List.finite_toSet _
  refine hnames.subset ?_
  rintro name ⟨-, other, fs, ⟨d, hd, -, hp⟩, t, ht, hn⟩
  refine Set.mem_biUnion (show d ∈ _ from ⟨other, hd⟩) ?_
  change name ∈ d.namesShown
  unfold Document.namesShown
  rw [hp]
  exact List.mem_flatMap.2 ⟨t, ht, hn⟩

theorem finite_texts_outside : Source.outside.texts.Finite :=
  Set.finite_empty.subset fun _ ⟨_, h⟩ => nomatch h

theorem finite_texts_memory (entries : List (String × String)) :
    (Source.memory entries).texts.Finite := by
  refine (List.finite_toSet (entries.map (·.2))).subset ?_
  rintro text ⟨location, h⟩
  unfold Source.memory at h
  dsimp only at h
  cases ht : Source.lookup? entries location with
  | none => rw [ht] at h; cases h
  | some other => rw [ht] at h; cases h; exact Source.lookup?_mem ht

theorem finite_texts_directory (files : Files.Tree) (root : String) :
    (Source.directory files root).texts.Finite := by
  refine (List.finite_toSet files.root.texts).subset ?_
  rintro text ⟨location, h⟩
  rw [Source.directory_answer] at h
  exact Source.readFirst_mem h

theorem exists_outline_of_texts (h : l.source.texts.Finite) (r : Registry) (t : TypeExpr) :
    ∃ o, Outlines l r [] t o :=
  exists_outline (finite_namedDictionaries h r) t

/-- **In memory every description comes to an end**, whatever has been loaded before. -/
theorem exists_outline_of_memory (entries : List (String × String)) (config : Config)
    (r : Registry) (t : TypeExpr) :
    ∃ o, Outlines { source := .memory entries, config } r [] t o :=
  exists_outline_of_texts (l := ⟨.memory entries, config⟩) (finite_texts_memory entries) r t

/-- **In a copy in a directory every description comes to an end.** -/
theorem exists_outline_of_directory (files : Files.Tree) (root : String) (config : Config)
    (r : Registry) (t : TypeExpr) :
    ∃ o, Outlines { source := .directory files root, config } r [] t o :=
  exists_outline_of_texts (l := ⟨.directory files root, config⟩)
    (finite_texts_directory files root) r t

/-! ## Searches that come to an end -/

/-- **A search comes to an end where fields name finitely many dictionaries.** -/
theorem Ends.exists_found {α : Type} {a : Search α} (ha : Ends a)
    (hfin : (l.namedDictionaries r).Finite) : ∃ x, foundAt l r a = some x := by
  refine Option.isSome_iff_exists.1 (ha.ends l r fun t => ?_)
  obtain ⟨o, ho⟩ := exists_outline hfin t
  obtain ⟨-, -, hfound⟩ := describe_of_outlines ho
  rw [hfound]
  rfl

theorem Ends.exists_found_outside {α : Type} {a : Search α} (ha : Ends a) (r : Registry) :
    ∃ x, foundAt { source := .outside } r a = some x :=
  ha.exists_found (finite_namedDictionaries (l := { source := .outside }) finite_texts_outside r)

theorem Ends.exists_answer {α : Type} {a : Inquiry α} (ha : Ends a.result)
    (hfin : (l.namedDictionaries r).Finite) : ∃ x, answerAt l r a = some x :=
  ha.exists_found hfin

end IdlDocs
