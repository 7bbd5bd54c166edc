import IdlDocs.Proofs.Description.History
import IdlDocs.Proofs.Operations

/-!
# Runs

In a run of operations the source may answer each of them in another way: documents may be
added to it and replaced.  What the registry keeps of them is settled when it is first loaded.

* `Composed.connected`, `Connected.operations`: what is composed of queries, and so **a run of
  operations, is a row of queries.**
* `kept_once_loaded`: what has been loaded is given again, and not asked for; what could not
  be loaded leaves no trace, and is asked for again.
-/

namespace IdlDocs

variable {c : Config} {e : Templates.Engine}

theorem Composed.connected {α : Type} {a : Lookup α} (h : Composed a) (source : Source)
    (r : Registry) : Connected c r (registryAfter ⟨source, c⟩ r a) := by
  induction h generalizing r with
  | pure | library => exact .refl r
  | tables => exact .tables source r
  | document name => exact .document source r name
  | describe t => exact .describe source r t
  | bind _ _ iha ihf =>
    rw [registryAfter_then]
    exact (iha r).trans (ihf _ _)

/-- The registry after operations, each of them performed with the source that there is
then. -/
def registryAfterAll (c : Config) : Registry → List (Source × Operation e) → Registry
  | r, [] => r
  | r, (source, o) :: steps => registryAfterAll c (registryAfter ⟨source, c⟩ r o.perform) steps

/-- **A run of operations is a row of queries.** -/
theorem Connected.operations (r : Registry) (steps : List (Source × Operation e)) :
    Connected c r (registryAfterAll c r steps) := by
  induction steps generalizing r with
  | nil => exact .refl r
  | cons step steps ih => exact (step.2.composed_perform.connected step.1 r).trans (ih _)

/-- **What has been loaded is kept as it is, and what could not be loaded leaves no trace.**
A run of operations is a row of queries, and at each point of such a row, whatever the source
answers there and later:

* a document that is given is given again by every later query, which asks for nothing;
* so are the tables, and later queries ask for the documents only; where the tables cannot be
  loaded, none of them is kept;
* a document that cannot be loaded leaves the documents as they were, and is asked for again
  until it has been loaded;
* as many documents are kept as names have been loaded, and never fewer later. -/
theorem kept_once_loaded (c : Config) :
    (∀ (e : Templates.Engine) r (steps : List (Source × Operation e)),
      ∃ qs, Leads c r qs (registryAfterAll c r steps)) ∧
    ∀ qs r, Leads c {} qs r → ∀ source,
      (∀ name d, outcomeAt ⟨source, c⟩ r (Registry.document name) = .ok d →
        ∀ qs' s, Leads c (registryAfter ⟨source, c⟩ r (Registry.document name).result) qs' s →
        ∀ source', outcomeAt ⟨source', c⟩ s (Registry.document name) = .ok d ∧
          registryAfter ⟨source', c⟩ s (Registry.document name).result = s) ∧
      (∀ t, outcomeAt ⟨source, c⟩ r Registry.tables = .ok t →
        ∀ qs' s, Leads c (registryAfter ⟨source, c⟩ r Registry.tables.result) qs' s →
        ∀ source', outcomeAt ⟨source', c⟩ s Registry.tables = .ok t ∧
          registryAfter ⟨source', c⟩ s Registry.tables.result = s ∧
          ∀ name, let s' := registryAfter ⟨source', c⟩ s (Registry.document name).result
            s'.asked = s.asked ∨ s'.asked = t.locationOf c name :: s.asked) ∧
      (∀ e, outcomeAt ⟨source, c⟩ r Registry.tables = .error e →
        (registryAfter ⟨source, c⟩ r Registry.tables.result).kept = none ∧
          ∀ name, (registryAfter ⟨source, c⟩ r (Registry.document name).result).kept = none) ∧
      (∀ name e, outcomeAt ⟨source, c⟩ r (Registry.document name) = .error e →
        let r' := registryAfter ⟨source, c⟩ r (Registry.document name).result
        r'.documents = r.documents ∧
          ∀ qs' s, Leads c r' qs' s → (∀ d, Query.document name (.ok d) ∉ qs') →
          ∀ source', ∃ new, new ≠ [] ∧
            (registryAfter ⟨source', c⟩ s (Registry.document name).result).asked =
              new ++ s.asked ∧
            ∀ t, Library.tablesAt ⟨source', c⟩ s = .ok t → t.locationOf c name ∈ new) ∧
      r.documents.length = (qs.filterMap Query.loaded?).dedup.length ∧
      ∀ qs' s, Leads c r qs' s → r.documents.length ≤ s.documents.length := by
  refine ⟨fun _ r steps => Connected.operations r steps, fun qs r hr source => ?_⟩
  refine ⟨fun name d hd qs' s hs source' => ?document, fun t ht qs' s hs source' => ?tables,
    fun e he => kept_of_failed_tables he, fun name e he => ?failed, hr.length_documents,
    fun qs' s hs => hs.within.documents.length_le⟩
  case document => exact hs.document_again (lookup_afterDocument hd) source'
  case tables =>
    have hkept := kept_afterTables ht
    obtain ⟨hagain, hleft⟩ := hs.tables_again hkept source'
    exact ⟨hagain, hleft, fun name => asked_afterDocument (hs.within.kept t hkept) name⟩
  case failed =>
    obtain ⟨hnone, hdocuments⟩ := documents_of_failed he
    refine ⟨hdocuments, fun qs' s hs hnot source' => exists_asked_of_missing _ ?_⟩
    -- The name was not kept, and none of the queries since then has loaded it.
    rw [lookup_eq_none_iff, hs.mem_names_iff, hdocuments]
    refine not_or.2 ⟨lookup_eq_none_iff.1 hnone, fun hmem => ?_⟩
    obtain ⟨q, hq, hname⟩ := List.mem_filterMap.1 hmem
    cases q with
    | tables outcome => cases hname
    | document other outcome =>
      cases outcome with
      | error e => cases hname
      | ok d => cases hname; exact hnot d hq

def singleLibrary : Library where
  source := .memory [("groups.json", "[\x7b\x7d]"), ("names.json", "\x7b\x7d"),
    ("events.json", "[]"),
    ("A.json", "\x7b\"defined\": \x7b\"fragment\": \"interface A \x7b\x7d;\"\x7d\x7d")]
  config := { groups := "groups.json", names := "names.json", events := "events.json", base := "" }

/-- The single document is given again by any source, after another one could not be loaded. -/
theorem kept_once_loaded_single :
    ∃ (d : Document) (e : Failure) (r s : Registry),
      outcomeAt singleLibrary {} (Registry.document "A") = .ok d ∧
      registryAfter singleLibrary {} (Registry.document "A").result = r ∧
      outcomeAt singleLibrary r (Registry.document "B") = .error e ∧
      registryAfter singleLibrary r (Registry.document "B").result = s ∧
      s.documents = r.documents ∧
      ∀ source, outcomeAt ⟨source, singleLibrary.config⟩ s (Registry.document "A") = .ok d ∧
        registryAfter ⟨source, singleLibrary.config⟩ s (Registry.document "A").result = s := by
  have hok : (singleLibrary.documentAt {} "A").isOk = true := by decide +kernel
  have herror : (singleLibrary.documentAt
      (registryAfter singleLibrary {} (Registry.document "A").result) "B").isOk = false := by
    decide +kernel
  rw [← outcomeAt_document] at hok herror
  cases hd : outcomeAt singleLibrary {} (Registry.document "A") with
  | error e => rw [hd] at hok; cases hok
  | ok d =>
    cases he : outcomeAt singleLibrary
        (registryAfter singleLibrary {} (Registry.document "A").result) (Registry.document "B") with
    | ok d' => rw [he] at herror; cases herror
    | error e =>
      obtain ⟨-, hrow⟩ := kept_once_loaded singleLibrary.config
      obtain ⟨hagain, -⟩ := hrow [] {} (.nil {}) singleLibrary.source
      obtain ⟨-, -, -, hfailed, -⟩ := hrow _ _ (.document singleLibrary.source "A" (.nil _))
        singleLibrary.source
      exact ⟨d, e, _, _, rfl, rfl, he, rfl, (hfailed "B" e he).1, fun source =>
        hagain "A" d hd _ _ (.document singleLibrary.source "B" (.nil _)) source⟩

end IdlDocs
