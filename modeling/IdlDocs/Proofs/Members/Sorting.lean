import IdlDocs.Proofs.Members.Order

/-!
# Sorted members

Members are sorted by their names, and what has one name keeps its order.  These two facts leave
one list only: the members with the least name come first, as they stood, and so on.

* `namesInOrder_eq_isLE`: in order is at most.
* `filter_mergeSort_key`: what has one key keeps its order.
* `eq_of_forall_filter_eq`: **sorted lists that agree on every name are the same.**
* `map_sortByName`, `sortNames_of_perm`: the names of sorted members are the sorted names, whatever
  their order was.
* `SortedFrom`, `sortByName_eq_iff`: the one list that is sorted.
* `sorted_by_total_order`: **the order of names is total, and members are sorted by it.**
-/

namespace IdlDocs.Idl

open Std

/-! ## Lists that are sorted by a key -/

theorem namesInOrder_eq_isLE (a b : String) : namesInOrder a b = (compareNames a b).isLE := by
  unfold namesInOrder
  cases compareNames a b <;> rfl

theorem eq_of_namesInOrder {a b : String} (hab : namesInOrder a b = true)
    (hba : namesInOrder b a = true) : a = b := by
  rw [namesInOrder_eq_isLE] at hab hba
  exact LawfulEqCmp.eq_of_compare (OrientedCmp.isLE_antisymm hab hba)

theorem namesInOrder_self (a : String) : namesInOrder a a = true := namesInOrder_iff.2 (.inr rfl)

variable {α : Type} {key : α → String} {as bs : List α}

theorem filter_mergeSort_key (key : α → String) (l : List α) (name : String) :
    (l.mergeSort fun a b => namesInOrder (key a) (key b)).filter (key · = name) =
      l.filter (key · = name) := by
  have hsame : (l.filter (key · = name)).Pairwise
      fun a b => namesInOrder (key a) (key b) = true := by
    refine List.pairwise_of_forall_mem_list fun a ha b hb => ?_
    have ha' : key a = name := by simpa using (List.mem_filter.1 ha).2
    have hb' : key b = name := by simpa using (List.mem_filter.1 hb).2
    rw [ha', hb']
    exact namesInOrder_self name
  have hsub := List.sublist_mergeSort
    (fun a b c => namesInOrder_trans (key a) (key b) (key c))
    (fun a b => namesInOrder_total (key a) (key b)) hsame List.filter_sublist
  have hfilter := hsub.filter (key · = name)
  rw [List.filter_filter] at hfilter
  simp only [Bool.and_self] at hfilter
  exact (hfilter.eq_of_length (((List.mergeSort_perm l _).filter _).length_eq.symm)).symm

/-- Lists that agree on every name have the same members. -/
theorem mem_iff_of_forall_filter_eq
    (h : ∀ name, as.filter (key · = name) = bs.filter (key · = name)) {a : α} :
    a ∈ as ↔ a ∈ bs := by
  have ha : a ∈ as.filter (key · = key a) ↔ a ∈ bs.filter (key · = key a) := by rw [h]
  simpa using ha

/-- Nothing in a sorted list is below what it starts with. -/
theorem namesInOrder_of_mem_cons {a b : α}
    (h : (a :: as).Pairwise fun a b => namesInOrder (key a) (key b) = true) (hb : b ∈ a :: as) :
    namesInOrder (key a) (key b) = true := by
  rcases List.mem_cons.1 hb with rfl | hb
  · exact namesInOrder_self (key b)
  · exact List.rel_of_pairwise_cons h hb

/-- **Sorted lists that agree on every name are the same.**  By induction: the names in front are
both the least one, hence the same, and then so are the two that are the first with this name. -/
theorem eq_of_forall_filter_eq
    (has : as.Pairwise fun a b => namesInOrder (key a) (key b) = true)
    (hbs : bs.Pairwise fun a b => namesInOrder (key a) (key b) = true)
    (h : ∀ name, as.filter (key · = name) = bs.filter (key · = name)) : as = bs := by
  induction as generalizing bs with
  | nil =>
    refine (List.eq_nil_iff_forall_not_mem.2 fun b hb => ?_).symm
    exact List.not_mem_nil ((mem_iff_of_forall_filter_eq h).2 hb)
  | cons a as ih =>
    cases bs with
    | nil => exact absurd ((mem_iff_of_forall_filter_eq h).1 List.mem_cons_self) List.not_mem_nil
    | cons b bs =>
      have hkey : key a = key b :=
        eq_of_namesInOrder
          (namesInOrder_of_mem_cons has ((mem_iff_of_forall_filter_eq h).2 List.mem_cons_self))
          (namesInOrder_of_mem_cons hbs ((mem_iff_of_forall_filter_eq h).1 List.mem_cons_self))
      have hfront := h (key a)
      rw [List.filter_cons_of_pos (by simp), List.filter_cons_of_pos (by simp [hkey])] at hfront
      obtain rfl := (List.cons.inj hfront).1
      have hrest (name : String) : as.filter (key · = name) = bs.filter (key · = name) := by
        have hname := h name
        by_cases ha : key a = name
        · rw [List.filter_cons_of_pos (by simpa using ha),
            List.filter_cons_of_pos (by simpa using ha)] at hname
          exact (List.cons.inj hname).2
        · rwa [List.filter_cons_of_neg (by simpa using ha),
            List.filter_cons_of_neg (by simpa using ha)] at hname
      rw [ih has.of_cons hbs.of_cons hrest]

/-! ## Sorted members -/

variable {ms ns : List Member}

/-- `ns` is `ms` in the order of names, and members of one name stand as they do in `ms`. -/
structure SortedFrom (ms ns : List Member) : Prop where
  sorted : ns.Pairwise fun a b => (compareNames a.nameOrEmpty b.nameOrEmpty).isLE
  kept : ∀ name, ns.filter (·.nameOrEmpty = name) = ms.filter (·.nameOrEmpty = name)

theorem sortedFrom_sortByName (ms : List Member) : SortedFrom ms (sortByName ms) where
  sorted := (pairwise_mergeSort_key Member.nameOrEmpty ms).imp
    fun h => (namesInOrder_eq_isLE _ _).symm.trans h
  kept := filter_mergeSort_key Member.nameOrEmpty ms

/-- **There is one list only that is sorted from `ms`.** -/
theorem sortByName_eq_iff : sortByName ms = ns ↔ SortedFrom ms ns := by
  constructor
  · rintro rfl
    exact sortedFrom_sortByName ms
  · intro h
    have hsorted := h.sorted.imp fun h => (namesInOrder_eq_isLE _ _).trans h
    refine eq_of_forall_filter_eq (pairwise_mergeSort_key Member.nameOrEmpty ms) hsorted ?_
    intro name
    rw [h.kept]
    exact filter_mergeSort_key Member.nameOrEmpty ms name

theorem sortByName_sortByName (ms : List Member) : sortByName (sortByName ms) = sortByName ms :=
  sortByName_eq_iff.2 ⟨(sortedFrom_sortByName ms).sorted, fun _ => rfl⟩

theorem map_sortByName (ms : List Member) :
    (sortByName ms).map Member.nameOrEmpty = sortNames (ms.map Member.nameOrEmpty) :=
  List.map_mergeSort fun _ _ _ _ => rfl

/-- Sorting forgets the order in which names are given, also where one stands more than once. -/
theorem sortNames_of_perm {names others : List String} (h : names.Perm others) :
    sortNames names = sortNames others := by
  have hperm : (sortNames names).Perm (sortNames others) :=
    (List.mergeSort_perm names _).trans (h.trans (List.mergeSort_perm others _).symm)
  exact hperm.eq_of_pairwise (fun a b _ _ => eq_of_namesInOrder)
    (pairwise_mergeSort_key id names) (pairwise_mergeSort_key id others)

/-! ## The order and the sorted members -/

/-- **The order of names is total, and members are sorted by it.**  No two names are equal in it
but the same ones.  Sorted members are those that were given, none above one behind it; those of
one name keep their order, which leaves one list only.  Sorting them again changes nothing, and
their names do not tell in which order the members were given. -/
theorem sorted_by_total_order :
    (∀ a b, compareNames b a = (compareNames a b).swap) ∧
      (∀ a b, (compareNames a b).isLE ∨ (compareNames b a).isLE) ∧
      (∀ a b, (compareNames a b).isLE → (compareNames b a).isLE → a = b) ∧
      (∀ a b c, (compareNames a b).isLE → (compareNames b c).isLE → (compareNames a c).isLE) ∧
      (∀ a b, compareNames a b = .eq ↔ a = b) ∧
      ∀ ms, (sortByName ms).Perm ms ∧
        SortedFrom ms (sortByName ms) ∧ (∀ ns, SortedFrom ms ns → ns = sortByName ms) ∧
        sortByName (sortByName ms) = sortByName ms ∧
        ∀ ns, ms.Perm ns →
          (sortByName ms).map Member.nameOrEmpty = (sortByName ns).map Member.nameOrEmpty := by
  refine ⟨fun a b => OrientedCmp.eq_swap, fun a b => ?_, fun a b hab hba => ?_,
    fun a b c => TransCmp.isLE_trans, fun a b => ?_, fun ms => ⟨List.mergeSort_perm ms _,
      sortedFrom_sortByName ms, fun ns h => (sortByName_eq_iff.2 h).symm,
      sortByName_sortByName ms, fun ns h => ?_⟩⟩
  · rw [← namesInOrder_eq_isLE, ← namesInOrder_eq_isLE, ← Bool.or_eq_true]
    exact namesInOrder_total a b
  · exact LawfulEqCmp.eq_of_compare (OrientedCmp.isLE_antisymm hab hba)
  · exact LawfulEqCmp.compare_eq_iff_eq
  · rw [map_sortByName, map_sortByName]
    exact sortNames_of_perm (h.map Member.nameOrEmpty)

/-- Members of which two differ in the case of their names only, and two are overloads.  They are
sorted backwards, but for the overloads. -/
def unsortedMembers : List Member :=
  [.ofOperation "B" (.named "any"), .ofOperation "A" (.named "any"),
    .ofOperation "A" (.named "long"), .ofOperation "a" (.named "any")]

/-- The small letter comes first, and the overloads stay as they are. -/
theorem sorted_by_total_order_backwards :
    (compareNames "a" "A").isLE ∧ (compareNames "A" "B").isLE ∧ (compareNames "a" "B").isLE ∧
      unsortedMembers.Perm unsortedMembers.reverse ∧
      (sortByName unsortedMembers).map Member.nameOrEmpty = ["a", "A", "A", "B"] ∧
      (sortByName unsortedMembers).filter (·.nameOrEmpty = "A") =
        [.ofOperation "A" (.named "any"), .ofOperation "A" (.named "long")] := by
  have haA : (compareNames "a" "A").isLE := by decide
  have hAB : (compareNames "A" "B").isLE := by decide
  have hperm : unsortedMembers.Perm unsortedMembers.reverse := (List.reverse_perm _).symm
  have hsorted : unsortedMembers.reverse.Pairwise
      fun a b => (compareNames a.nameOrEmpty b.nameOrEmpty).isLE := by decide
  obtain ⟨-, -, -, htrans, -, hall⟩ := sorted_by_total_order
  obtain ⟨-, hfrom, -, -, hnames⟩ := hall unsortedMembers
  refine ⟨haA, hAB, htrans _ _ _ haA hAB, hperm, ?_, (hfrom.kept "A").trans rfl⟩
  rw [hnames _ hperm, sortByName_eq_iff.2 ⟨hsorted, fun _ => rfl⟩]
  rfl

end IdlDocs.Idl
