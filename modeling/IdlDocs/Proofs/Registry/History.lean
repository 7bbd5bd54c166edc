import IdlDocs.Proofs.Registry.Loading
import Mathlib.Data.List.Dedup
import Mathlib.Data.List.Perm.Lattice

/-!
# Histories

What happens to a registry is a row of **queries**: each looks up the tables or the document
of a name.  The source may answer each of them in another way; the settings stay as they are.

* `Query`, `Leads`: queries with what they gave, and the registries that they lead to.
* `Connected`: some queries lead from one registry to another.
* `Registry.Within`: one registry keeps all that another one keeps.
* `Leads.within`: **queries forget nothing.**
* `Leads.document_again`, `Leads.tables_again`: **what is kept is given again**, and not asked
  for.
* `exists_asked_of_missing`: what is not kept is asked for again.
* `Leads.mem_names_iff`, `Leads.length_documents`: the documents that are kept are those that
  have been loaded, each of them once.
* `Registry.Grounded`: where a document is kept, so are the tables that said where it is.
-/

namespace IdlDocs

variable {c : Config} {r s : Registry} {qs qs' : List Query}

/-- A query to a registry, with what it gave. -/
inductive Query
  | tables (outcome : Except Failure Tables)
  | document (name : String) (outcome : Except Failure Document)

/-- The name of the document that a query has loaded or found. -/
def Query.loaded? : Query → Option String
  | .document name (.ok _) => some name
  | _ => none

/-- The queries lead from one registry to another, each of them with the source that there is
then. -/
inductive Leads (c : Config) : Registry → List Query → Registry → Prop
  | nil (r : Registry) : Leads c r [] r
  | tables {r s : Registry} {qs : List Query} (source : Source)
    (h : Leads c (registryAfter ⟨source, c⟩ r Registry.tables.result) qs s) :
    Leads c r (.tables (outcomeAt ⟨source, c⟩ r Registry.tables) :: qs) s
  | document {r s : Registry} {qs : List Query} (source : Source) (name : String)
    (h : Leads c (registryAfter ⟨source, c⟩ r (Registry.document name).result) qs s) :
    Leads c r (.document name (outcomeAt ⟨source, c⟩ r (Registry.document name)) :: qs) s

theorem Leads.append {t : Registry} (h : Leads c r qs s) (h' : Leads c s qs' t) :
    Leads c r (qs ++ qs') t := by
  induction h with
  | nil r => exact h'
  | tables source _ ih => exact .tables source (ih h')
  | document source name _ ih => exact .document source name (ih h')

/-- Some queries lead from one registry to another. -/
def Connected (c : Config) (r s : Registry) : Prop := ∃ qs, Leads c r qs s

namespace Connected

theorem refl (r : Registry) : Connected c r r := ⟨[], .nil r⟩

theorem trans {t : Registry} (h : Connected c r s) (h' : Connected c s t) :
    Connected c r t := by
  obtain ⟨qs, hqs⟩ := h
  obtain ⟨qs', hqs'⟩ := h'
  exact ⟨qs ++ qs', hqs.append hqs'⟩

theorem tables (source : Source) (r : Registry) :
    Connected c r (registryAfter ⟨source, c⟩ r Registry.tables.result) :=
  ⟨_, .tables source (.nil _)⟩

theorem document (source : Source) (r : Registry) (name : String) :
    Connected c r (registryAfter ⟨source, c⟩ r (Registry.document name).result) :=
  ⟨_, .document source name (.nil _)⟩

end Connected

/-! ## What is kept -/

/-- The registry `s` keeps all that `r` keeps, and has asked for all that `r` has asked for. -/
structure Registry.Within (r s : Registry) : Prop where
  kept : ∀ t, r.kept = some t → s.kept = some t
  documents : r.documents <+: s.documents
  asked : r.asked <:+ s.asked

namespace Registry.Within

theorem refl (r : Registry) : r.Within r := ⟨fun _ h => h, List.prefix_rfl, List.suffix_rfl⟩

theorem trans {t : Registry} (h : r.Within s) (h' : s.Within t) : r.Within t :=
  ⟨fun x hx => h'.kept x (h.kept x hx), h.documents.trans h'.documents, h.asked.trans h'.asked⟩

theorem lookup (h : r.Within s) {name : String} {d : Document}
    (hd : r.documents.lookup name = some d) : s.documents.lookup name = some d := by
  obtain ⟨new, hnew⟩ := h.documents
  rw [← hnew, List.lookup_append, hd, Option.some_or]

theorem kept_tablesAt (l : Library) (r : Registry) (t : Tables) (h : r.kept = some t) :
    (l.tablesAt r).toOption = some t := by
  rw [Library.tablesAt_of_kept h]
  rfl

theorem afterTables (l : Library) (r : Registry) :
    r.Within (registryAfter l r Registry.tables.result) := by
  rw [registryAfter_tables]
  exact ⟨kept_tablesAt l r, List.prefix_rfl, List.suffix_append _ _⟩

theorem afterDocument (l : Library) (r : Registry) (name : String) :
    r.Within (registryAfter l r (Registry.document name).result) := by
  cases h : r.documents.lookup name with
  | some d => rw [registryAfter_document_kept l h]; exact refl r
  | none =>
    rw [registryAfter_document_new l h]
    exact ⟨kept_tablesAt l r, List.prefix_append _ _, List.suffix_append _ _⟩

end Registry.Within

/-- **Queries forget nothing.** -/
theorem Leads.within (h : Leads c r qs s) : r.Within s := by
  induction h with
  | nil r => exact .refl r
  | tables source _ ih => exact (Registry.Within.afterTables _ _).trans ih
  | document source name _ ih => exact (Registry.Within.afterDocument _ _ name).trans ih

/-! ## Queries that are made again -/

theorem lookup_afterDocument {l : Library} {name : String} {d : Document}
    (h : outcomeAt l r (Registry.document name) = .ok d) :
    (registryAfter l r (Registry.document name).result).documents.lookup name = some d := by
  rw [outcomeAt_document] at h
  cases hk : r.documents.lookup name with
  | some e =>
    rw [Library.documentAt_of_kept hk] at h
    cases h
    rw [registryAfter_document_kept l hk, hk]
  | none =>
    rw [registryAfter_document_new l hk]
    unfold Library.newDocuments
    rw [hk, h, List.lookup_append, hk]
    simp

/-- **A document that is kept is given again**, and nothing is asked for it. -/
theorem Leads.document_again (h : Leads c r qs s) {name : String} {d : Document}
    (hd : r.documents.lookup name = some d) (source : Source) :
    outcomeAt ⟨source, c⟩ s (Registry.document name) = .ok d ∧
      registryAfter ⟨source, c⟩ s (Registry.document name).result = s := by
  have hs := h.within.lookup hd
  exact ⟨(outcomeAt_document _ _ _).trans (Library.documentAt_of_kept hs),
    registryAfter_document_kept _ hs⟩

theorem kept_afterTables {l : Library} {t : Tables}
    (h : outcomeAt l r Registry.tables = .ok t) :
    (registryAfter l r Registry.tables.result).kept = some t := by
  rw [outcomeAt_tables] at h
  rw [registryAfter_tables, h]
  rfl

theorem registryAfter_tables_kept (l : Library) {t : Tables} (h : s.kept = some t) :
    registryAfter l s Registry.tables.result = s := by
  obtain ⟨kept, documents, asked⟩ := s
  cases h
  rw [registryAfter_tables]
  rfl

/-- **Tables that are kept are given again**, and nothing is asked for them. -/
theorem Leads.tables_again (h : Leads c r qs s) {t : Tables} (ht : r.kept = some t)
    (source : Source) :
    outcomeAt ⟨source, c⟩ s Registry.tables = .ok t ∧
      registryAfter ⟨source, c⟩ s Registry.tables.result = s := by
  have hs := h.within.kept t ht
  exact ⟨(outcomeAt_tables _ _).trans (Library.tablesAt_of_kept hs),
    registryAfter_tables_kept _ hs⟩

/-- With the tables at hand a document is asked for at its own location, and nowhere else. -/
theorem asked_afterDocument {l : Library} {t : Tables} (ht : s.kept = some t) (name : String) :
    (registryAfter l s (Registry.document name).result).asked = s.asked ∨
      (registryAfter l s (Registry.document name).result).asked =
        t.locationOf l.config name :: s.asked := by
  cases hk : s.documents.lookup name with
  | some d => rw [registryAfter_document_kept l hk]; exact .inl rfl
  | none =>
    rw [registryAfter_document_new l hk]
    unfold Library.documentRequests Library.tableRequestsAt
    rw [hk, Library.tablesAt_of_kept ht, ht]
    exact .inr rfl

theorem kept_of_failed_tables {l : Library} {e : Failure}
    (h : outcomeAt l r Registry.tables = .error e) :
    (registryAfter l r Registry.tables.result).kept = none ∧
      ∀ name, (registryAfter l r (Registry.document name).result).kept = none := by
  rw [outcomeAt_tables] at h
  refine ⟨by rw [registryAfter_tables, h]; rfl, fun name => ?_⟩
  cases hk : r.documents.lookup name with
  | none => rw [registryAfter_document_new l hk, h]; rfl
  | some d =>
    rw [registryAfter_document_kept l hk]
    cases hr : r.kept with
    | none => rfl
    | some t => rw [Library.tablesAt_of_kept hr] at h; cases h

/-- A document that cannot be loaded leaves the documents as they were. -/
theorem documents_of_failed {l : Library} {name : String} {e : Failure}
    (h : outcomeAt l r (Registry.document name) = .error e) :
    r.documents.lookup name = none ∧
      (registryAfter l r (Registry.document name).result).documents = r.documents := by
  rw [outcomeAt_document] at h
  cases hk : r.documents.lookup name with
  | some d => rw [Library.documentAt_of_kept hk] at h; cases h
  | none =>
    refine ⟨rfl, ?_⟩
    rw [registryAfter_document_new l hk]
    unfold Library.newDocuments
    rw [hk, h]
    exact List.append_nil _

theorem tableRequests_ne_nil (l : Library) : l.tableRequests ≠ [] := by
  unfold Library.tableRequests
  split <;> exact List.cons_ne_nil _ _

/-- **A document that is not kept is asked for again**: at its own location, if the tables can
be had, else by asking for these. -/
theorem exists_asked_of_missing (l : Library) {name : String}
    (h : s.documents.lookup name = none) :
    ∃ new, new ≠ [] ∧
      (registryAfter l s (Registry.document name).result).asked = new ++ s.asked ∧
      ∀ t, l.tablesAt s = .ok t → t.locationOf l.config name ∈ new := by
  refine ⟨l.documentRequests s name, ?_, by rw [registryAfter_document_new l h], ?_⟩
  · unfold Library.documentRequests
    rw [h]
    cases ht : l.tablesAt s with
    | ok t => exact List.cons_ne_nil _ _
    | error e =>
      unfold Library.tableRequestsAt
      cases hk : s.kept with
      | none => exact tableRequests_ne_nil l
      | some t => rw [Library.tablesAt_of_kept hk] at ht; cases ht
  · intro t ht
    unfold Library.documentRequests
    rw [h, ht]
    exact List.mem_cons_self

/-! ## Which documents are kept -/

theorem lookup_eq_none_iff {documents : List (String × Document)} {name : String} :
    documents.lookup name = none ↔ name ∉ documents.map (·.1) := by
  rw [List.lookup_eq_none_iff, List.mem_map]
  constructor
  · rintro h ⟨p, hp, rfl⟩
    exact bne_iff_ne.1 (h p hp) rfl
  · exact fun h p hp => bne_iff_ne.2 fun he => h ⟨p, hp, he.symm⟩

theorem names_afterDocument (l : Library) (r : Registry) (name : String) :
    (registryAfter l r (Registry.document name).result).documents.map (·.1) =
      match r.documents.lookup name, l.documentAt r name with
      | none, .ok _ => r.documents.map (·.1) ++ [name]
      | _, _ => r.documents.map (·.1) := by
  cases h : r.documents.lookup name with
  | some d => rw [registryAfter_document_kept l h]
  | none =>
    rw [registryAfter_document_new l h]
    unfold Library.newDocuments
    rw [h]
    cases l.documentAt r name with
    | error e => simp only [List.append_nil]
    | ok d => rw [List.map_append]; rfl

theorem mem_names_afterDocument (l : Library) (r : Registry) (name other : String) :
    other ∈ (registryAfter l r (Registry.document name).result).documents.map (·.1) ↔
      other ∈ r.documents.map (·.1) ∨
        (Query.document name (outcomeAt l r (Registry.document name))).loaded? = some other := by
  rw [names_afterDocument, outcomeAt_document]
  cases h : r.documents.lookup name with
  | some d =>
    -- A name that is kept is found again, and adds nothing.
    have hmem : name ∈ r.documents.map (·.1) := by
      by_contra hn
      rw [lookup_eq_none_iff.2 hn] at h
      cases h
    rw [Library.documentAt_of_kept h]
    refine ⟨Or.inl, fun ho => ho.elim id fun he => ?_⟩
    cases he
    exact hmem
  | none =>
    cases l.documentAt r name with
    | error e => exact ⟨Or.inl, fun ho => ho.elim id nofun⟩
    | ok d =>
      dsimp only [Query.loaded?]
      rw [List.mem_append, List.mem_singleton, Option.some_inj, eq_comm (a := name)]

theorem nodup_names_afterDocument (l : Library) (h : (r.documents.map (·.1)).Nodup)
    (name : String) :
    ((registryAfter l r (Registry.document name).result).documents.map (·.1)).Nodup := by
  rw [names_afterDocument]
  split
  · next hn _ =>
    rw [List.nodup_append]
    refine ⟨h, List.nodup_singleton name, fun a ha b hb => ?_⟩
    rw [List.mem_singleton.1 hb]
    rintro rfl
    exact lookup_eq_none_iff.1 hn ha
  · exact h

theorem documents_afterTables (l : Library) (r : Registry) :
    (registryAfter l r Registry.tables.result).documents = r.documents := by
  rw [registryAfter_tables]

/-- The documents that are kept are those that have been kept before, or have been loaded
since. -/
theorem Leads.mem_names_iff (h : Leads c r qs s) (name : String) :
    name ∈ s.documents.map (·.1) ↔
      name ∈ r.documents.map (·.1) ∨ name ∈ qs.filterMap Query.loaded? := by
  induction h with
  | nil r => simp
  | tables source _ ih =>
    rw [ih, documents_afterTables, List.filterMap_cons_none rfl]
  | @document r s qs source other _ ih =>
    rw [ih, mem_names_afterDocument, or_assoc, List.filterMap_cons]
    cases (Query.document other
      (outcomeAt ⟨source, c⟩ r (Registry.document other))).loaded? with
    | none => simp
    | some found => simp [eq_comm]

theorem Leads.nodup_names (h : Leads c r qs s) (hr : (r.documents.map (·.1)).Nodup) :
    (s.documents.map (·.1)).Nodup := by
  induction h with
  | nil r => exact hr
  | tables source _ ih => exact ih (by rw [documents_afterTables]; exact hr)
  | document source name _ ih => exact ih (nodup_names_afterDocument _ hr name)

/-- **As many documents are kept as names have been loaded.** -/
theorem Leads.length_documents (h : Leads c {} qs r) :
    r.documents.length = (qs.filterMap Query.loaded?).dedup.length := by
  rw [← List.length_map (·.1)]
  refine ((List.perm_ext_iff_of_nodup (h.nodup_names List.nodup_nil)
    (List.nodup_dedup _)).2 fun name => ?_).length_eq
  rw [h.mem_names_iff, List.mem_dedup]
  exact or_iff_right List.not_mem_nil

/-! ## What the tables are kept for -/

def Registry.Grounded (r : Registry) : Prop := r.documents ≠ [] → ∃ t, r.kept = some t

theorem Library.exists_tablesAt_of_documentAt {l : Library} (hr : r.Grounded) {name : String}
    {d : Document} (h : l.documentAt r name = .ok d) : ∃ t, l.tablesAt r = .ok t := by
  cases hk : r.documents.lookup name with
  | some e =>
    obtain ⟨t, ht⟩ := hr fun he => by rw [he] at hk; cases hk
    exact ⟨t, Library.tablesAt_of_kept ht⟩
  | none =>
    rw [Library.documentAt_of_new hk] at h
    obtain ⟨t, ht, -⟩ := bind_eq_ok_iff.1 h
    exact ⟨t, ht⟩

theorem Registry.Grounded.afterDocument (l : Library) (hr : r.Grounded) (name : String) :
    (registryAfter l r (Registry.document name).result).Grounded := by
  cases h : r.documents.lookup name with
  | some d => rw [registryAfter_document_kept l h]; exact hr
  | none =>
    intro hne
    cases ht : l.tablesAt r with
    | ok t =>
      rw [registryAfter_document_new l h, ht]
      exact ⟨t, rfl⟩
    | error e =>
      -- Without tables nothing is loaded, so that a document was kept before.
      have hd : l.documentAt r name = .error e := by
        rw [Library.documentAt_of_new h, ht]
        rfl
      have hold : r.documents ≠ [] := fun he => hne <| by
        rw [registryAfter_document_new l h]
        unfold Library.newDocuments
        rw [h, hd, he]
        rfl
      obtain ⟨t, hk⟩ := hr hold
      exact ⟨t, (Within.afterDocument l r name).kept t hk⟩

theorem Leads.grounded (h : Leads c r qs s) (hr : r.Grounded) : s.Grounded := by
  induction h with
  | nil r => exact hr
  | @tables r s qs source _ ih =>
    refine ih fun hne => ?_
    rw [documents_afterTables] at hne
    obtain ⟨t, ht⟩ := hr hne
    exact ⟨t, (Registry.Within.afterTables _ r).kept t ht⟩
  | document source name _ ih => exact ih (hr.afterDocument _ name)

end IdlDocs
