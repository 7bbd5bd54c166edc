import IdlDocs.Idl.Equality
import IdlDocs.Proofs.Interfaces.Partition

/-!
# The order of declarations

An overview does not show in which order the members of an interface are declared, nor in which
of its fragments.  Where no two members have the same identity, all of them are first, and each
list is those that pass its tests.  Their names are different, and there is one way only to sort
different names.

* `firsts_of_nodup`: members with different identities are all first.
* `eq_of_perm_of_pairwise`: different names have one sorted order.
* `selectSorted_of_perm`, `foundAt_memberGroups_of_perm`, `sortNames_eventNames_of_perm`: the lists
  and the events are the same for members in another order.
* `overview_of_perm`: **so are the overviews**, at registries that answer alike.
-/

namespace IdlDocs

open Idl

variable {l : Library} {r s : Registry} {fs gs : Fragments} {tests : List Test}

/-! ## Members that are all first -/

namespace Idl

/-- By induction on the members, for any identities that have been seen and are not among
theirs. -/
theorem firstsAfter_of_nodup {seen : List Identity} {ms : List Member}
    (hseen : ∀ m ∈ ms, m.identity ∉ seen) (h : (ms.map Member.identity).Nodup) :
    firstsAfter seen ms = ms := by
  induction ms generalizing seen with
  | nil => rfl
  | cons m ms ih =>
    rw [List.map_cons, List.nodup_cons] at h
    obtain ⟨hm, hms⟩ := h
    have hnew : ¬ seen.contains m.identity = true := by
      intro hc
      exact hseen m List.mem_cons_self (List.contains_iff_mem.1 hc)
    rw [firstsAfter, if_neg hnew, ih _ hms]
    intro a ha hmem
    rcases List.mem_cons.1 hmem with he | hmem
    · exact hm (he ▸ List.mem_map_of_mem ha)
    · exact hseen a (List.mem_cons_of_mem m ha) hmem

/-- **Members with different identities are all first.** -/
theorem firsts_of_nodup {ms : List Member} (h : (ms.map Member.identity).Nodup) :
    firsts ms = ms :=
  firstsAfter_of_nodup (fun _ _ => List.not_mem_nil) h

/-- **Different names have one sorted order.** -/
theorem eq_of_perm_of_pairwise {α : Type} {key : α → String} {as bs : List α}
    (has : (as.map key).Pairwise fun a b => compareNames a b = .lt)
    (hbs : (bs.map key).Pairwise fun a b => compareNames a b = .lt) (h : as.Perm bs) :
    as = bs := by
  refine h.eq_of_pairwise ?_ (List.pairwise_map.1 has) (List.pairwise_map.1 hbs)
  intro a b _ _ hab hba
  have hgt : compareNames (key a) (key b) = .gt := Std.OrientedCmp.gt_iff_lt.2 hba
  rw [hab] at hgt
  cases hgt

/-- Sorting different names forgets the order in which they are given. -/
theorem mergeSort_of_perm {α : Type} (key : α → String) {as bs : List α}
    (hnodup : (as.map key).Nodup) (h : as.Perm bs) :
    as.mergeSort (fun a b => namesInOrder (key a) (key b)) =
      bs.mergeSort fun a b => namesInOrder (key a) (key b) := by
  have hbs : (bs.map key).Nodup := (h.map key).nodup_iff.1 hnodup
  refine eq_of_perm_of_pairwise (pairwise_lt_mergeSort key hnodup)
    (pairwise_lt_mergeSort key hbs) ?_
  exact (List.mergeSort_perm as _).trans (h.trans (List.mergeSort_perm bs _).symm)

end Idl

/-! ## The lists of members in another order -/

section Reordered

variable (hperm : (Fragments.members fs).Perm (Fragments.members gs))
  (hnodup : ((Fragments.members fs).map Member.identity).Nodup)

include hperm hnodup

theorem selected_of_perm (tests : List Test) : (selected fs tests).Perm (selected gs tests) := by
  have hgs : ((Fragments.members gs).map Member.identity).Nodup :=
    (hperm.map Member.identity).nodup_iff.1 hnodup
  rw [selected_eq, selected_eq, firsts_of_nodup hnodup, firsts_of_nodup hgs]
  exact hperm.filter _

theorem hasConstructor_of_perm : hasConstructor fs = hasConstructor gs := by
  unfold hasConstructor
  rw [(selected_of_perm hperm hnodup [Member.isConstructor]).isEmpty_eq]

variable (hw : ∀ m ∈ Fragments.members fs, m.WellNamed)

include hw

/-- **A list is the same for members in another order**, where its tests leave out members
without a name. -/
theorem selectSorted_of_perm (h : ∀ m ∈ selected fs tests, m.isNamed = true) :
    selectSorted fs tests = selectSorted gs tests := by
  have hsame := selected_of_perm hperm hnodup tests
  have hsorted : sortByName (selected fs tests) = sortByName (selected gs tests) :=
    mergeSort_of_perm Member.nameOrEmpty (nodup_names hw h) hsame
  unfold selectSorted select
  cases hf : selected fs tests with
  | nil =>
    rw [hf] at hsame
    rw [hsame.nil_eq]
  | cons m ms =>
    rw [hf] at hsame hsorted
    cases hg : selected gs tests with
    | nil =>
      rw [hg] at hsame
      exact absurd hsame.length_eq (by simp)
    | cons m' ms' =>
      rw [hg] at hsorted
      exact congrArg some hsorted

/-- **The four lists are the same for members in another order**, at registries that answer
alike. -/
theorem foundAt_memberGroups_of_perm (halike : l.Alike r s) :
    foundAt l r (memberGroups fs) = foundAt l s (memberGroups gs) := by
  have hproperties (isStatic : Bool) :
      selectSorted fs (propertyTests isStatic) = selectSorted gs (propertyTests isStatic) := by
    refine selectSorted_of_perm hperm hnodup hw fun m hm => ?_
    obtain ⟨hfirst, hattr, -⟩ := mem_propertyTests.1 hm
    exact isNamed_of_isAttribute hw hfirst hattr
  have hmethods (isStatic : Bool) :
      selectSorted fs (methodTests isStatic) = selectSorted gs (methodTests isStatic) := by
    refine selectSorted_of_perm hperm hnodup hw fun m hm => ?_
    obtain ⟨-, -, hnamed, -⟩ := mem_methodTests.1 hm
    exact hnamed
  have hlists (entry : Member → PropertyEntry) :
      MemberGroups.ofEntries entry fs = .ofEntries entry gs := by
    unfold MemberGroups.ofEntries
    rw [hproperties, hproperties, hmethods, hmethods]
  calc foundAt l r (memberGroups fs)
      = foundAt l r (memberGroups gs) := by
        obtain ⟨entry, -, hentry⟩ := exists_entry l r
        ext g
        rw [foundAt_memberGroups_eq_some_iff hentry, foundAt_memberGroups_eq_some_iff hentry,
          hlists]
        simp only [hproperties]
    _ = foundAt l s (memberGroups gs) := (Ends.memberGroups gs).composed.steady.value halike

/-- **The events are the same for members in another order.** -/
theorem sortNames_eventNames_of_perm :
    sortNames (eventNames fs) = sortNames (eventNames gs) := by
  have hsame : (eventNames fs).Perm (eventNames gs) :=
    (selected_of_perm hperm hnodup [Member.isEventHandler]).filterMap Member.eventName?
  refine mergeSort_of_perm id ?_ hsame
  rw [List.map_id]
  exact nodup_eventNames hw

end Reordered

/-! ## Overviews -/

/-- **The overviews of two interfaces are the same but for their names and their parents**,
where their members are the same in another order. -/
theorem overview_of_perm {name other : String} {d e : Document} {main main' : Interface}
    (halike : l.Alike r s)
    (hd : l.documentAt r name = .ok d) (he : l.documentAt s other = .ok e)
    (hf : parse d.combined = .ok fs) (hg : parse e.combined = .ok gs)
    (hm : Fragments.mainInterface? fs = some main)
    (hm' : Fragments.mainInterface? gs = some main')
    (hattributes : main.attributes.Perm main'.attributes)
    (hperm : (Fragments.members fs).Perm (Fragments.members gs))
    (hnodup : ((Fragments.members fs).map Member.identity).Nodup) :
    ∃ isSecure hasConstructor events,
      (answerAt l r (overview name) = (foundAt l r (memberGroups fs)).bind fun members =>
        (answerAt l r (parentGroups d main)).map (·.map fun parent =>
          { name, parent, members, isSecure, hasConstructor, events })) ∧
      answerAt l s (overview other) = (foundAt l r (memberGroups fs)).bind fun members =>
        (answerAt l s (parentGroups e main')).map (·.map fun parent =>
          { name := other, parent, members, isSecure, hasConstructor, events }) := by
  have hw := wellNamed_of_parse hf
  refine ⟨main.isSecure, hasConstructor fs, sortNames (eventNames fs),
    answerAt_overview_of_main hd hf hm, ?_⟩
  have hsecure : main.isSecure = main'.isSecure := by
    unfold Interface.isSecure
    exact hattributes.contains_eq
  rw [foundAt_memberGroups_of_perm hperm hnodup hw halike, hsecure,
    hasConstructor_of_perm hperm hnodup, sortNames_eventNames_of_perm hperm hnodup hw]
  exact answerAt_overview_of_main he hg hm'

def orderedDocument : Document where
  text := "[SecureContext] interface A \x7b constructor(); attribute long b; " ++
    "attribute long B; attribute EventHandler onend; \x7d;"

/-- The same members in a document of another name, in another order and in two fragments. -/
def scatteredDocument : Document where
  text := "[SecureContext] interface C \x7b attribute long B; \x7d;"
  extensions := ["partial interface C \x7b attribute EventHandler onend; constructor(); " ++
    "attribute long b; \x7d;"]

/-- Two names that differ in case only have one order, however they are declared. -/
theorem overview_of_perm_scattered :
    ∃ (r : Registry) (o o' : Overview),
      Library.documentAt { source := .outside } r "A" = .ok orderedDocument ∧
      Library.documentAt { source := .outside } r "C" = .ok scatteredDocument ∧
      answerAt { source := .outside } r (overview "A") = some (.ok o) ∧
      answerAt { source := .outside } r (overview "C") = some (.ok o') ∧
      o' = { o with name := "C" } := by
  have hf : parse orderedDocument.combined = .ok [
      .interface { name := "A", attributes := ["SecureContext"], members := [
        .ofConstructor, .ofAttribute "b" (.named "long"), .ofAttribute "B" (.named "long"),
        .ofAttribute "onend" (.named "EventHandler")] }] := by decide +kernel
  have hg : parse scatteredDocument.combined = .ok [
      .interface { name := "C", attributes := ["SecureContext"], members := [
        .ofAttribute "B" (.named "long")] },
      .interface { name := "C", isPartial := true, members := [
        .ofAttribute "onend" (.named "EventHandler"), .ofConstructor,
        .ofAttribute "b" (.named "long")] }] := by decide +kernel
  have hd : Library.documentAt { source := .outside }
      { documents := [("A", orderedDocument), ("C", scatteredDocument)] } "A" =
        .ok orderedDocument := rfl
  have he : Library.documentAt { source := .outside }
      { documents := [("A", orderedDocument), ("C", scatteredDocument)] } "C" =
        .ok scatteredDocument := rfl
  obtain ⟨isSecure, hasConstructor, events, ho, ho'⟩ :=
    overview_of_perm (.refl _ _) hd he hf hg rfl rfl (.refl _) (by decide +kernel)
      (by decide +kernel)
  obtain ⟨members, hmembers⟩ := (Ends.memberGroups [
    .interface { name := "A", attributes := ["SecureContext"], members := [
      .ofConstructor, .ofAttribute "b" (.named "long"), .ofAttribute "B" (.named "long"),
      .ofAttribute "onend" (.named "EventHandler")] }]).exists_found_outside
        { documents := [("A", orderedDocument), ("C", scatteredDocument)] }
  rw [hmembers] at ho ho'
  exact ⟨_, _, _, hd, he, ho, ho', rfl⟩

end IdlDocs
