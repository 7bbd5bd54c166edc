import IdlDocs.Proofs.Members.Firsts

/-!
# Extracting members

The walk over the members keeps those that are first with their identity and pass the tests.  What
it remembers matters as a set only.  So a member is kept by what stands in front of it
alone, and more fragments add members behind those that are there.

* `firstsAfter_eq_filter`: identities that have been seen leave out their members.
* `firsts_append`: the first members of two lists, one behind the other.
* `firsts_eq_filter_zipIdx`: **a member is kept where no member in front of it has its
  identity.**
* `extraction_laws`: what is extracted by tests, from one set of fragments and from two.
-/

namespace IdlDocs.Idl

variable {seen before new : List Identity} {ms as bs : List Member}

/-! ## Identities that have been seen -/

/-- **Identities that have been seen leave out their members**, and nothing else.  By induction
on the members: one that is kept is seen on both sides from then on. -/
theorem firstsAfter_eq_filter (h : ∀ i, i ∈ seen ↔ i ∈ before ∨ i ∈ new) (ms : List Member) :
    firstsAfter seen ms = (firstsAfter before ms).filter fun m => m.identity ∉ new := by
  induction ms generalizing seen before with
  | nil => rfl
  | cons m ms ih =>
    have hseen := h m.identity
    simp only [firstsAfter, List.contains_iff_mem]
    by_cases hbefore : m.identity ∈ before
    · rw [if_pos hbefore, if_pos (hseen.2 (.inl hbefore))]
      exact ih h
    · have hmore : ∀ i, i ∈ m.identity :: before ↔ i = m.identity ∨ i ∈ before :=
        fun i => List.mem_cons
      by_cases hnew : m.identity ∈ new
      · rw [if_neg hbefore, if_pos (hseen.2 (.inr hnew)), List.filter_cons_of_neg (by simpa)]
        refine ih fun i => ?_
        rw [h, hmore]
        constructor
        · tauto
        · rintro ((rfl | hi) | hi) <;> tauto
      · rw [if_neg hbefore, if_neg (by tauto), List.filter_cons_of_pos (by simpa)]
        refine congrArg (m :: ·) (ih fun i => ?_)
        rw [List.mem_cons, h, hmore]
        tauto

/-- The order in which identities have been seen does not matter, nor how often. -/
theorem firstsAfter_congr (h : ∀ i, i ∈ seen ↔ i ∈ before) (ms : List Member) :
    firstsAfter seen ms = firstsAfter before ms := by
  have hnone : ∀ i, i ∈ seen ↔ i ∈ before ∨ i ∈ ([] : List Identity) := by simpa using h
  rw [firstsAfter_eq_filter hnone]
  simp

theorem firstsAfter_append (seen : List Identity) (as bs : List Member) :
    firstsAfter seen (as ++ bs) =
      firstsAfter seen as ++ firstsAfter (as.map Member.identity ++ seen) bs := by
  induction as generalizing seen with
  | nil => rfl
  | cons a as ih =>
    simp only [List.cons_append, firstsAfter, List.contains_iff_mem]
    split
    · next ha =>
      rw [ih]
      congr 1
      refine firstsAfter_congr (fun i => ?_) bs
      simp only [List.map_cons, List.cons_append, List.mem_cons, List.mem_append]
      constructor
      · tauto
      · rintro (rfl | hi) <;> tauto
    · rw [ih, List.cons_append]
      congr 2
      refine firstsAfter_congr (fun i => ?_) bs
      simp only [List.map_cons, List.cons_append, List.mem_cons, List.mem_append]
      tauto

/-- **Members behind others are kept if they are first among themselves** and no identity of
the others is theirs. -/
theorem firsts_append (as bs : List Member) :
    firsts (as ++ bs) =
      firsts as ++ (firsts bs).filter fun m => ∀ a ∈ as, a.identity ≠ m.identity := by
  have hbs : firstsAfter (as.map Member.identity ++ []) bs =
      (firsts bs).filter fun m => m.identity ∉ as.map Member.identity :=
    firstsAfter_eq_filter (by simp) bs
  have happend : firsts (as ++ bs) =
      firsts as ++ firstsAfter (as.map Member.identity ++ []) bs := firstsAfter_append [] as bs
  rw [happend, hbs]
  congr 1
  refine List.filter_congr fun m _ => ?_
  simp

/-! ## Places -/

/-- By induction on the members: `front` is what stands in front of them, and the identities
that have been seen are those of its members. -/
theorem firstsAfter_eq_filter_zipIdx (front ms : List Member)
    (h : ∀ i, i ∈ seen ↔ i ∈ front.map Member.identity) :
    firstsAfter seen ms = ((ms.zipIdx front.length).filter fun x : Member × Nat =>
      ∀ a ∈ (front ++ ms).take x.2, a.identity ≠ x.1.identity).map Prod.fst := by
  induction ms generalizing seen front with
  | nil => rfl
  | cons m ms ih =>
    have hlength : (front ++ [m]).length = front.length + 1 := by simp
    have hfront : (front ++ m :: ms).take front.length = front := List.take_left
    have hlist : front ++ m :: ms = front ++ [m] ++ ms := by simp
    have hrest {seen : List Identity}
        (hseen : ∀ i, i ∈ seen ↔ i ∈ (front ++ [m]).map Member.identity) := ih _ hseen
    rw [hlength, ← hlist] at hrest
    simp only [firstsAfter, List.contains_iff_mem, List.zipIdx_cons]
    by_cases hm : m.identity ∈ seen
    · rw [if_pos hm, List.filter_cons_of_neg, hrest]
      · intro i
        rw [h]
        simp only [List.map_append, List.mem_append, List.map_singleton, List.mem_singleton]
        constructor
        · exact .inl
        · rintro (hi | rfl)
          · exact hi
          · exact (h _).1 hm
      · rw [hfront]
        simpa using (h _).1 hm
    · rw [if_neg hm, List.filter_cons_of_pos, List.map_cons, hrest]
      · intro i
        simp [h, or_comm]
      · rw [hfront]
        simpa [h] using hm

/-- **A member is kept where no member in front of it has its identity.** -/
theorem firsts_eq_filter_zipIdx (ms : List Member) :
    firsts ms = (ms.zipIdx.filter fun x : Member × Nat =>
      ∀ a ∈ ms.take x.2, a.identity ≠ x.1.identity).map Prod.fst :=
  firstsAfter_eq_filter_zipIdx [] ms (by simp)

/-! ## Extraction -/

variable {fs gs : Fragments} {ps qs : List Test}

theorem getD_select (fs : Fragments) (ps : List Test) :
    (select fs ps).getD [] = selected fs ps := by
  unfold select
  cases selected fs ps <;> rfl

theorem select_eq_none_iff : select fs ps = none ↔ selected fs ps = [] := by
  unfold select
  cases selected fs ps <;> simp

theorem members_append (fs gs : Fragments) :
    Fragments.members (fs ++ gs) = Fragments.members fs ++ Fragments.members gs := by
  simp [Fragments.members]

/-- A member is selected where no member in front of it has its identity and it passes all
tests. -/
theorem selected_eq_filter_zipIdx (fs : Fragments) (ps : List Test) :
    selected fs ps = ((Fragments.members fs).zipIdx.filter fun x : Member × Nat =>
      (∀ a ∈ (Fragments.members fs).take x.2, a.identity ≠ x.1.identity) ∧
        ∀ t ∈ ps, t x.1 = true).map Prod.fst := by
  rw [selected_eq, firsts_eq_filter_zipIdx, List.filter_map, List.filter_filter]
  refine congrArg (List.map Prod.fst) (List.filter_congr fun x _ => ?_)
  rw [Bool.eq_iff_iff]
  simp [and_comm]

theorem selected_append (fs gs : Fragments) (ps : List Test) :
    selected (fs ++ gs) ps = selected fs ps ++
      (selected gs ps).filter fun m => ∀ a ∈ Fragments.members fs, a.identity ≠ m.identity := by
  rw [selected_eq, selected_eq, selected_eq, members_append, firsts_append, List.filter_append,
    List.filter_filter, List.filter_filter]
  refine congrArg (_ ++ ·) (List.filter_congr fun m _ => ?_)
  exact Bool.and_comm _ _

theorem selected_tests_append (fs : Fragments) (ps qs : List Test) :
    selected fs (ps ++ qs) = (selected fs ps).filter fun m => ∀ t ∈ qs, t m = true := by
  rw [selected_eq, selected_eq, List.filter_filter]
  refine List.filter_congr fun m _ => ?_
  rw [Bool.eq_iff_iff]
  simp [and_comm]

/-- The order of the tests does not matter, nor how often one is made. -/
theorem selected_congr (h : ∀ t, t ∈ qs ↔ t ∈ ps) : selected fs qs = selected fs ps := by
  rw [selected_eq, selected_eq]
  refine List.filter_congr fun m _ => ?_
  rw [Bool.eq_iff_iff]
  simp [h]

/-- **Extraction.**  What the walk over the members keeps are, in the order in which they are
declared, the members that have no member of their identity in front of them and pass all tests.
More fragments add members behind those that are there, more tests leave members out, and only the
set of the tests matters.  What would be empty is absent. -/
theorem extraction_laws (fs gs : Fragments) (ps qs : List Test) :
    (select fs ps).getD [] = ((Fragments.members fs).zipIdx.filter fun x : Member × Nat =>
        (∀ a ∈ (Fragments.members fs).take x.2, a.identity ≠ x.1.identity) ∧
          ∀ t ∈ ps, t x.1 = true).map Prod.fst ∧
      (select (fs ++ gs) ps).getD [] = (select fs ps).getD [] ++
        ((select gs ps).getD []).filter
          (fun m => ∀ a ∈ Fragments.members fs, a.identity ≠ m.identity) ∧
      (select fs (ps ++ qs)).getD [] =
        ((select fs ps).getD []).filter (fun m => ∀ t ∈ qs, t m = true) ∧
      (∀ ts, (∀ t, t ∈ ts ↔ t ∈ ps) → select fs ts = select fs ps) ∧
      (select fs ps = none ↔ (select fs ps).getD [] = []) := by
  rw [select_eq_none_iff, getD_select, getD_select, getD_select, getD_select]
  refine ⟨selected_eq_filter_zipIdx fs ps, selected_append fs gs ps,
    selected_tests_append fs ps qs, fun ts hts => ?_, Iff.rfl⟩
  unfold select
  rw [selected_congr hts]

def overloadedFragments : Fragments :=
  [.interface { name := "A", members := [
    { Member.ofOperation "f" (.named "any") with qualifier := .static },
    .ofOperation "f" (.named "any"), .ofOperation "g" (.named "any")] }]

/-- A partial definition of the same interface with more overloads and a new operation. -/
def extendingFragments : Fragments :=
  [.interface { name := "A", isPartial := true, members := [
    .ofOperation "f" (.named "any"), .ofOperation "g" (.named "long"),
    .ofOperation "h" (.named "any")] }]

/-- The overload stays hidden behind the static operation, though the tests leave only the latter
out, and the order of the tests does not matter. -/
theorem extraction_laws_overloads :
    (∀ t, t ∈ [Member.isOperation, Test.not Member.isStatic] ↔
        t ∈ [Test.not Member.isStatic, Member.isOperation]) ∧
      (select (overloadedFragments ++ extendingFragments)
        [Test.not Member.isStatic, Member.isOperation]).getD [] =
        [.ofOperation "g" (.named "any")] ++ [.ofOperation "h" (.named "any")] ∧
      select overloadedFragments [Member.isOperation, Test.not Member.isStatic] =
        some [.ofOperation "g" (.named "any")] := by
  have htests : ∀ t, t ∈ [Member.isOperation, Test.not Member.isStatic] ↔
      t ∈ [Test.not Member.isStatic, Member.isOperation] := by
    simp [or_comm]
  obtain ⟨-, happend, -, hsame, -⟩ := extraction_laws overloadedFragments extendingFragments
    [Test.not Member.isStatic, Member.isOperation] []
  exact ⟨htests, happend.trans rfl, (hsame _ htests).trans rfl⟩

end IdlDocs.Idl
