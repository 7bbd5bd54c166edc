import IdlDocs.Interfaces.Lookup
import IdlDocs.Proofs.Idl.Members
import Mathlib.Data.List.Nodup

/-!
# The first members

A member is kept if no member before it has its identity and it passes the tests; what the tests
say of the members before it makes no difference.  Two of those that are kept are therefore never
one, and a name is that of at most one of them.

* `firsts`: the members that are the first with their identity.
* `selected_eq`: **those of them that pass the tests are kept.**
* `nodup_firsts`: they have different identities.
* `firstSelected?_eq_some_iff`: where the tests leave no choice, the first member that
  passes them is any that does.
* `lookUp?_eq_some_iff`: the member that is looked up by its name and by whether it is
  static.
-/

namespace IdlDocs

open Idl

namespace Idl

/-! ## The walk over the members -/

/-- The members whose identity is neither in `seen` nor that of a member before them. -/
def firstsAfter (seen : List Identity) : List Member → List Member
  | [] => []
  | m :: ms =>
    if seen.contains m.identity then firstsAfter seen ms
    else m :: firstsAfter (m.identity :: seen) ms

/-- The members that are the first with their identity. -/
def firsts (members : List Member) : List Member := firstsAfter [] members

namespace Extraction

variable {tests : List Test} {x : Extraction} {m : Member}

theorem step_of_seen (h : m.identity ∈ x.seen) : step tests x m = x :=
  if_pos (List.contains_iff_mem.2 h)

/-- A member that is met first is kept if it passes the tests, and seen in any case. -/
theorem step_of_not_seen (h : m.identity ∉ x.seen) :
    step tests x m = { seen := x.seen ++ [m.identity]
                       kept := x.kept ++ [m].filter fun m => tests.all (· m) } := by
  refine (if_neg fun hc => h (List.contains_iff_mem.1 hc)).trans ?_
  rw [List.filter_singleton]
  cases tests.all (· m) with
  | true => rfl
  | false => simp

/-- By induction on the members: the identities that the walk has met are those in `seen`, in
whatever order. -/
theorem kept_foldl (ms : List Member) {seen : List Identity} (h : ∀ i, i ∈ x.seen ↔ i ∈ seen) :
    (ms.foldl (step tests) x).kept =
      x.kept ++ (firstsAfter seen ms).filter fun m => tests.all (· m) := by
  induction ms generalizing x seen with
  | nil => exact (List.append_nil _).symm
  | cons m ms ih =>
    rw [List.foldl_cons, firstsAfter]
    by_cases hm : m.identity ∈ x.seen
    · rw [step_of_seen hm, if_pos (List.contains_iff_mem.2 ((h _).1 hm)), ih h]
    · have hseen : ∀ i, i ∈ x.seen ++ [m.identity] ↔ i ∈ m.identity :: seen := by
        intro i
        rw [List.mem_append, List.mem_singleton, List.mem_cons, h, or_comm]
      rw [step_of_not_seen hm, if_neg fun hc => hm ((h _).2 (List.contains_iff_mem.1 hc)),
        ih hseen, List.append_assoc, ← List.filter_append, List.singleton_append]

end Extraction

/-- **The first members that pass the tests are kept.** -/
theorem selected_eq (fs : Fragments) (tests : List Test) :
    selected fs tests = (firsts (Fragments.members fs)).filter fun m => tests.all (· m) :=
  Extraction.kept_foldl (Fragments.members fs) fun _ => Iff.rfl

/-! ## Identities -/

/-- The members that are kept are none of those that have been seen, and not twice the
same. -/
theorem nodup_firstsAfter (seen : List Identity) (ms : List Member) :
    ((firstsAfter seen ms).map Member.identity).Nodup ∧
      ∀ m ∈ firstsAfter seen ms, m ∈ ms ∧ m.identity ∉ seen := by
  induction ms generalizing seen with
  | nil => exact ⟨List.nodup_nil, fun m hm => absurd hm List.not_mem_nil⟩
  | cons m ms ih =>
    rw [firstsAfter]
    split
    · obtain ⟨hnodup, hmem⟩ := ih seen
      exact ⟨hnodup, fun a ha => ⟨List.mem_cons_of_mem m (hmem a ha).1, (hmem a ha).2⟩⟩
    · next hm =>
      obtain ⟨hnodup, hmem⟩ := ih (m.identity :: seen)
      refine ⟨List.nodup_cons.2 ⟨fun h => ?_, hnodup⟩, fun a ha => ?_⟩
      · obtain ⟨a, ha, he⟩ := List.mem_map.1 h
        exact (hmem a ha).2 (he ▸ List.mem_cons_self)
      · rcases List.mem_cons.1 ha with rfl | ha
        · exact ⟨List.mem_cons_self, fun h => hm (List.contains_iff_mem.2 h)⟩
        · obtain ⟨hms, hseen⟩ := hmem a ha
          exact ⟨List.mem_cons_of_mem m hms, fun h => hseen (List.mem_cons_of_mem _ h)⟩

/-- **The members that are kept have different identities.** -/
theorem nodup_firsts (ms : List Member) : ((firsts ms).map Member.identity).Nodup :=
  (nodup_firstsAfter [] ms).1

theorem mem_of_mem_firsts {ms : List Member} {m : Member} (h : m ∈ firsts ms) : m ∈ ms :=
  ((nodup_firstsAfter [] ms).2 m h).1

theorem eq_of_mem_firsts {ms : List Member} {a b : Member} (ha : a ∈ firsts ms)
    (hb : b ∈ firsts ms) (h : a.identity = b.identity) : a = b :=
  List.inj_on_of_nodup_map (nodup_firsts ms) ha hb h

theorem mem_selected {fs : Fragments} {tests : List Test} {m : Member} :
    m ∈ selected fs tests ↔ m ∈ firsts (Fragments.members fs) ∧ ∀ t ∈ tests, t m = true := by
  rw [selected_eq, List.mem_filter, List.all_eq_true]

end Idl

theorem exists_firstSelected?_iff {fs : Fragments} {tests : List Test} :
    (∃ m, firstSelected? fs tests = some m) ↔ ∃ m, m ∈ selected fs tests := by
  unfold firstSelected?
  cases selected fs tests with
  | nil => simp
  | cons m ms => exact ⟨fun _ => ⟨m, List.mem_cons_self⟩, fun _ => ⟨m, rfl⟩⟩

/-- **Where the tests leave members of one identity only, the first one that passes them is
any that does.** -/
theorem firstSelected?_eq_some_iff {fs : Fragments} {tests : List Test} {i : Identity}
    (hi : ∀ m ∈ selected fs tests, m.identity = i) {m : Member} :
    firstSelected? fs tests = some m ↔ m ∈ selected fs tests := by
  constructor
  · exact List.mem_of_head?
  · intro hm
    unfold firstSelected?
    cases hh : (selected fs tests).head? with
    | none =>
      rw [List.head?_eq_none_iff.1 hh] at hm
      cases hm
    | some a =>
      have ha : a ∈ selected fs tests := List.mem_of_head? hh
      rw [eq_of_mem_firsts (mem_selected.1 ha).1 (mem_selected.1 hm).1
        ((hi a ha).trans (hi m hm).symm)]

/-! ## Members with a name -/

variable {fs : Fragments} {name : String}

/-- The members that a source text defines have the identity of their name. -/
theorem identity_of_name (hw : ∀ m ∈ Fragments.members fs, m.WellNamed) {m : Member}
    (hm : m ∈ firsts (Fragments.members fs)) (hn : m.name = some name) :
    m.identity = .named (some name) := by
  unfold Member.identity
  rw [(hw m (mem_of_mem_firsts hm)).not_isConstructor hn, hn]
  rfl

theorem nameOrEmpty_of_name {m : Member} (h : m.name = some name) : m.nameOrEmpty = name := by
  unfold Member.nameOrEmpty
  rw [h]
  rfl

theorem name_of_isNamed {m : Member} (h : m.isNamed = true) : m.name = some m.nameOrEmpty := by
  unfold Member.isNamed at h
  unfold Member.nameOrEmpty at h ⊢
  cases hn : m.name with
  | some name => rfl
  | none => rw [hn] at h; cases h

theorem hasName_iff {m : Member} : m.hasName name = true ↔ m.name = some name := by
  unfold Member.hasName
  exact beq_iff_eq

def staticTest (isStatic : Bool) : Test :=
  if isStatic then Member.isStatic else Test.not Member.isStatic

theorem staticTest_iff {isStatic : Bool} {m : Member} :
    staticTest isStatic m = true ↔ m.isStatic = isStatic := by
  cases isStatic with
  | true => exact Iff.rfl
  | false =>
    change (!m.isStatic) = true ↔ _
    rw [Bool.not_eq_true']

def lookUp? (fs : Fragments) (name : String) (isStatic : Bool) : Option Member :=
  firstSelected? fs [staticTest isStatic, Member.hasName name]

theorem lookUp?_eq_some_iff (hw : ∀ m ∈ Fragments.members fs, m.WellNamed) {isStatic : Bool}
    {m : Member} : lookUp? fs name isStatic = some m ↔
      m ∈ firsts (Fragments.members fs) ∧ m.isStatic = isStatic ∧ m.name = some name := by
  have hmem : ∀ m, m ∈ selected fs [staticTest isStatic, Member.hasName name] ↔
      m ∈ firsts (Fragments.members fs) ∧ m.isStatic = isStatic ∧ m.name = some name := by
    intro m
    rw [mem_selected, List.forall_mem_cons, List.forall_mem_singleton, staticTest_iff,
      hasName_iff]
  unfold lookUp?
  rw [firstSelected?_eq_some_iff (i := .named (some name)), hmem]
  intro a ha
  obtain ⟨hfirst, -, hname⟩ := (hmem a).1 ha
  exact identity_of_name hw hfirst hname

end IdlDocs
