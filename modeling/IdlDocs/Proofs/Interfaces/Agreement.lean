import IdlDocs.Proofs.Interfaces.Partition

/-!
# The index and the overview

The index of an interface and its overview choose among the same first members, by other tests.
They agree but for one kind of members: an event handler that is static is listed among the
static properties of the overview, and not among the properties of the index.

* `MemberGroups.propertyIndex`, `MemberGroups.methodIndex`: the lists of an overview in the form of
  an index.
* `perm_propertyIndex`, `perm_methodIndex`: **both list the same**, up to static event handlers.
* `omitsHandlers_iff`: event handlers are no properties where none of them is static.
* `index_agrees`: **an overview, its index and the lists of its parent.**
* `static_handler_listed`: an interface with a static event handler.
-/

namespace IdlDocs

open Idl

variable {l : Library} {r : Registry} {fs : Fragments}

/-- The properties of an overview, each with its being static. -/
def MemberGroups.propertyIndex (g : MemberGroups) : List IndexEntry :=
  (g.propertyList true).map (⟨·.name, true⟩) ++ (g.propertyList false).map (⟨·.name, false⟩)

/-- The methods of an overview, each with its being static. -/
def MemberGroups.methodIndex (g : MemberGroups) : List IndexEntry :=
  (g.methodList true).map (⟨·.name, true⟩) ++ (g.methodList false).map (⟨·.name, false⟩)

/-- No event handler has an entry among the properties, static or not. -/
def MemberGroups.OmitsHandlers (g : MemberGroups) (fs : Fragments) : Prop :=
  ∀ m ∈ firsts (Fragments.members fs), m.isEventHandler = true →
    ∀ isStatic, ∀ e ∈ g.propertyList isStatic, e.name ≠ m.nameOrEmpty

def NoStaticHandler (fs : Fragments) : Prop :=
  ∀ m ∈ firsts (Fragments.members fs), m.isEventHandler = true → m.isStatic = false

/-! ## Two ways to divide the first members -/

theorem count_filter {α : Type} [DecidableEq α] (p : α → Bool) (l : List α) (a : α) :
    (l.filter p).count a = (p a).toNat * l.count a := by
  cases hp : p a with
  | true => rw [List.count_filter hp, Bool.toNat_true, Nat.one_mul]
  | false =>
    rw [Bool.toNat_false, Nat.zero_mul, List.count_eq_zero]
    intro ha
    rw [List.mem_filter, hp] at ha
    cases ha.2

/-- Two filters give together what two other ones do, if each element passes as many of them. -/
theorem perm_filter_append {α : Type} {p q p' q' : α → Bool} {l : List α}
    (h : ∀ a ∈ l, (p a).toNat + (q a).toNat = (p' a).toNat + (q' a).toNat) :
    (l.filter p ++ l.filter q).Perm (l.filter p' ++ l.filter q') := by
  classical
  rw [List.perm_iff_count]
  intro a
  rw [List.count_append, List.count_append, count_filter, count_filter, count_filter, count_filter,
    ← Nat.add_mul, ← Nat.add_mul]
  by_cases ha : a ∈ l
  · rw [h a ha]
  · rw [List.count_eq_zero_of_not_mem ha, Nat.mul_zero, Nat.mul_zero]

/-- The entries of a list, in the form of an index, are those of the selected members. -/
theorem perm_map_selectSorted {α : Type} {tests : List Test} {f : Member → α} (fs : Fragments)
    (name : α → String) (isStatic : Bool) (hname : ∀ m, name (f m) = m.nameOrEmpty)
    (hstatic : staticTest isStatic ∈ tests) :
    ((((selectSorted fs tests).map (·.map f)).getD []).map fun e =>
      (⟨name e, isStatic⟩ : IndexEntry)).Perm ((selected fs tests).map IndexEntry.ofMember) := by
  refine ((perm_selectSorted fs tests f).map _).trans ?_
  rw [List.map_map]
  refine .of_eq (List.map_congr_left fun m hm => ?_)
  have hm' : m.isStatic = isStatic := staticTest_iff.1 ((mem_selected.1 hm).2 _ hstatic)
  unfold IndexEntry.ofMember
  rw [← hname m, hm']
  rfl

theorem staticTest_mem_methodTests (isStatic : Bool) :
    staticTest isStatic ∈ methodTests isStatic := by
  cases isStatic <;> simp [staticTest, methodTests]

theorem staticTest_mem_propertyTests (isStatic : Bool) :
    staticTest isStatic ∈ propertyTests isStatic := by
  cases isStatic <;> simp [staticTest, propertyTests]

section Found

variable {g : MemberGroups} (hg : foundAt l r (memberGroups fs) = some g)

include hg

/-- **The methods of the index are those of the overview.** -/
theorem perm_methodIndex :
    ((selected fs [Member.isOperation, Member.isNamed]).map IndexEntry.ofMember).Perm
      g.methodIndex := by
  obtain ⟨entry, rfl, -, -⟩ := exists_listedBy hg
  have hname : ∀ m, (MethodEntry.ofMember m).name = m.nameOrEmpty := fun _ => rfl
  have hlists : (MemberGroups.ofEntries entry fs).methodIndex.Perm
      ((selected fs (methodTests true) ++ selected fs (methodTests false)).map
        IndexEntry.ofMember) := by
    rw [List.map_append]
    have hlist (isStatic : Bool) := perm_map_selectSorted fs MethodEntry.name isStatic
      hname (staticTest_mem_methodTests isStatic)
    exact (hlist true).append (hlist false)
  refine .trans (.map _ ?_) hlists.symm
  have hmore (t : Test) : selected fs [Member.isOperation, Member.isNamed, t] =
      (selected fs [Member.isOperation, Member.isNamed]).filter t := by
    rw [selected_eq, selected_eq, List.filter_filter]
    refine List.filter_congr fun m _ => ?_
    simp [Bool.and_comm, Bool.and_assoc]
  change List.Perm _ (selected fs [_, _, Member.isStatic] ++
    selected fs [_, _, Test.not Member.isStatic])
  rw [hmore, hmore]
  exact (List.filter_append_perm Member.isStatic _).symm

/-- **The properties of the index, with the static event handlers, are those of the overview.** -/
theorem perm_propertyIndex (hw : ∀ m ∈ Fragments.members fs, m.WellNamed) :
    ((selected fs [Member.isAttribute, Member.isNamed, Test.not Member.isEventHandler] ++
        selected fs [Member.isEventHandler, Member.isStatic]).map IndexEntry.ofMember).Perm
      g.propertyIndex := by
  obtain ⟨entry, rfl, hname, -⟩ := exists_listedBy hg
  have hlists : (MemberGroups.ofEntries entry fs).propertyIndex.Perm
      ((selected fs (propertyTests true) ++ selected fs (propertyTests false)).map
        IndexEntry.ofMember) := by
    rw [List.map_append]
    have hlist (isStatic : Bool) := perm_map_selectSorted fs PropertyEntry.name isStatic
      hname (staticTest_mem_propertyTests isStatic)
    exact (hlist true).append (hlist false)
  refine .trans (.map _ ?_) hlists.symm
  rw [selected_eq, selected_eq, selected_eq, selected_eq]
  refine perm_filter_append fun m hm => ?_
  -- What is no attribute passes none of the tests, and an attribute passes as many on both sides.
  cases hattr : m.isAttribute with
  | false =>
    have hhandler : m.isEventHandler = false := by
      by_contra h
      rw [isAttribute_of_isEventHandler (Bool.not_eq_false _ ▸ h)] at hattr
      cases hattr
    simp [propertyTests, hattr, hhandler]
  | true =>
    have hnamed := isNamed_of_isAttribute hw hm hattr
    cases hstatic : m.isStatic <;> cases hhandler : m.isEventHandler <;>
      simp [propertyTests, Test.not, hattr, hnamed, hstatic, hhandler]

/-- The properties of the index are those of the overview just where no event handler is
static. -/
theorem perm_propertyIndex_iff (hw : ∀ m ∈ Fragments.members fs, m.WellNamed) :
    ((selected fs [Member.isAttribute, Member.isNamed, Test.not Member.isEventHandler]).map
        IndexEntry.ofMember).Perm g.propertyIndex ↔ NoStaticHandler fs := by
  have hperm := perm_propertyIndex hg hw
  rw [List.map_append] at hperm
  have hnone : selected fs [Member.isEventHandler, Member.isStatic] = [] ↔
      NoStaticHandler fs := by
    rw [List.eq_nil_iff_forall_not_mem]
    refine forall_congr' fun m => ?_
    rw [mem_selected, List.forall_mem_cons, List.forall_mem_singleton]
    cases m.isStatic <;> simp
  rw [← hnone]
  constructor
  · intro h
    have hlength := (hperm.trans h.symm).length_eq
    rw [List.length_append, List.length_map, List.length_map] at hlength
    exact List.length_eq_zero_iff.1 (by omega)
  · intro h
    rw [h] at hperm
    simpa using hperm

/-- **Event handlers are no properties just where none of them is static.** -/
theorem omitsHandlers_iff (hw : ∀ m ∈ Fragments.members fs, m.WellNamed) :
    g.OmitsHandlers fs ↔ NoStaticHandler fs := by
  constructor
  · intro h m hm hhandler
    by_contra hstatic
    have hattr := isAttribute_of_isEventHandler hhandler
    have hlisted : m ∈ selected fs (propertyTests true) :=
      mem_propertyTests.2 ⟨hm, hattr, by simpa using hstatic, nofun⟩
    obtain ⟨e, he, hfound⟩ := exists_propertyEntry hg hlisted
    exact h m hm hhandler true e he (name_of_propertyEntry hfound)
  · intro h m hm hhandler isStatic e he hsame
    obtain ⟨m', hm', hattr, rfl, hplain, hfound⟩ := (mem_propertyList_iff hg).1 he
    rw [name_of_propertyEntry hfound] at hsame
    have heq := eq_of_nameOrEmpty hw hm' hm (isNamed_of_isAttribute hw hm' hattr)
      (isNamed_of_isAttribute hw hm (isAttribute_of_isEventHandler hhandler)) hsame
    rw [heq, h m hm hhandler] at hplain
    rw [hplain rfl] at hhandler
    cases hhandler

end Found

/-! ## Overviews -/

theorem answerAt_parentGroups (d : Document) (main : Interface) :
    answerAt l r (parentGroups d main) =
      match main.parent with
      | none => some (.ok none)
      | some parent => andThen (some (outcomeAt l r (parentFragments d parent))) fun fs =>
          (foundAt l r (memberGroups fs)).map fun g => .ok (some (parent, g)) := by
  unfold parentGroups
  cases main.parent with
  | none => rfl
  | some parent =>
    refine ((Ends.ofAttempt (.parentFragments d parent)).answerAt_bind fun fs =>
      (Ends.memberGroups fs).ofSearch.inquire fun _ => .answer (.ok _)).trans ?_
    rw [answerAt_ofAttempt]
    congr 1
    funext fs
    refine ((Ends.memberGroups fs).ofSearch.answerAt_bind fun _ => .answer (.ok _)).trans ?_
    rw [answerAt_ofSearch]
    cases foundAt l r (memberGroups fs) <;> rfl

/-- **The lists of the parent** are of its definitions. -/
theorem exists_of_parentGroups {d : Document} {main : Interface} {parent : String}
    {g : MemberGroups} (h : answerAt l r (parentGroups d main) = some (.ok (some (parent, g)))) :
    main.parent = some parent ∧ ∃ parentFs,
      outcomeAt l r (parentFragments d parent) = .ok parentFs ∧
      foundAt l r (memberGroups parentFs) = some g := by
  rw [answerAt_parentGroups] at h
  cases hnamed : main.parent with
  | none => rw [hnamed] at h; cases h
  | some named =>
    rw [hnamed] at h
    obtain ⟨parentFs, hparentFs, hfound⟩ := andThen_eq_ok_iff.1 h
    obtain ⟨g', hg, hsame⟩ := Option.map_eq_some_iff.1 hfound
    cases hsame
    exact ⟨rfl, parentFs, Option.some.inj hparentFs, hg⟩

theorem wellNamed_of_parseFor {name text : String} (h : parseFor name text = .ok fs) :
    ∀ m ∈ Fragments.members fs, m.WellNamed := by
  unfold parseFor at h
  cases hp : parse text with
  | error e => rw [hp] at h; cases h
  | ok fs' => rw [hp] at h; cases h; exact wellNamed_of_parse hp

theorem wellNamed_of_parentFragments {d : Document} {parent : String}
    (h : outcomeAt l r (parentFragments d parent) = .ok fs) :
    ∀ m ∈ Fragments.members fs, m.WellNamed := by
  unfold parentFragments at h
  cases ht : d.parentText? with
  | some found =>
    rw [ht] at h
    exact wellNamed_of_parseFor h
  | none =>
    rw [ht] at h
    dsimp only at h
    rw [outcomeAt_then] at h
    obtain ⟨p, -, hparse⟩ := bind_eq_ok_iff.1 h
    exact wellNamed_of_parseFor hparse

/-- **The index of an interface agrees with its overview**, but for the event handlers that are
static: these are listed among the static properties of the overview. -/
theorem index_agrees {name : String} {o : Overview}
    (ho : answerAt l r (overview name) = some (.ok o)) :
    ∃ (d : Document) (fs : Fragments) (index : MemberIndex),
      l.documentAt r name = .ok d ∧ parse d.combined = .ok fs ∧
      outcomeAt l r (memberIndex name) = .ok index ∧
      index.hasConstructor = o.hasConstructor ∧ index.events.Perm o.events ∧
      index.methods.Perm o.members.methodIndex ∧
      (index.properties ++ (selected fs [Member.isEventHandler, Member.isStatic]).map
        IndexEntry.ofMember).Perm o.members.propertyIndex ∧
      (index.properties.Perm o.members.propertyIndex ↔ NoStaticHandler fs) ∧
      (o.members.OmitsHandlers fs ↔ NoStaticHandler fs) ∧
      ∀ parent g, o.parent = some (parent, g) →
        ∃ parentFs, outcomeAt l r (parentFragments d parent) = .ok parentFs ∧
          (g.OmitsHandlers parentFs ↔ NoStaticHandler parentFs) := by
  rw [answerAt_overview] at ho
  obtain ⟨⟨d, fs⟩, hfound, ho⟩ := andThen_eq_ok_iff.1 ho
  obtain ⟨main, hmain, ho⟩ := andThen_eq_ok_iff.1 ho
  obtain ⟨members, hmembers, ho⟩ := Option.bind_eq_some_iff.1 ho
  obtain ⟨found, hparent, ho⟩ := Option.map_eq_some_iff.1 ho
  obtain ⟨found, rfl, rfl⟩ := map_eq_ok_iff.1 ho
  obtain ⟨hd, hp⟩ := exists_of_definitionsOf (Option.some.inj hfound)
  have hm := interfaceOf_eq_ok_iff.1 (Option.some.inj hmain)
  have hw := wellNamed_of_parse hp
  have hf := outcomeAt_fragmentsOf hd hp (hm ▸ rfl)
  have hproperties := perm_propertyIndex hmembers hw
  rw [List.map_append] at hproperties
  refine ⟨d, fs, _, hd, hp, outcomeAt_memberIndex hf, rfl, (List.mergeSort_perm _ _).symm,
    perm_methodIndex hmembers, hproperties, perm_propertyIndex_iff hmembers hw,
    omitsHandlers_iff hmembers hw, ?_⟩
  rintro parent g rfl
  obtain ⟨-, parentFs, hparentFs, hg⟩ := exists_of_parentGroups hparent
  exact ⟨parentFs, hparentFs, omitsHandlers_iff hg (wellNamed_of_parentFragments hparentFs)⟩

/-- A document of an interface with an event handler, which has a modifier in front of it. -/
def handlerDocument (modifier : String) : Document where
  kind := .interface
  text := "interface A \x7b " ++ modifier ++ "attribute EventHandler onend; \x7d;"

/-- Tells whether a document is that of an interface without a parent, whose first members pass a
test. -/
def Document.isRootWith (d : Document) (test : List Member → Bool) : Bool :=
  match parse d.combined with
  | .ok fs =>
    (Fragments.mainInterface? fs).any (·.parent.isNone) && test (firsts (Fragments.members fs))
  | .error _ => false

/-- Where such a document is known, its interface has an overview. -/
theorem exists_of_isRootWith {d : Document} {test : List Member → Bool}
    (h : d.isRootWith test = true) :
    ∃ fs o main, parse d.combined = .ok fs ∧ test (firsts (Fragments.members fs)) = true ∧
      answerAt { source := .outside } { documents := [("A", d)] } (overview "A") = some (.ok o) ∧
      IsOverview { source := .outside } { documents := [("A", d)] } "A" o fs main := by
  unfold Document.isRootWith at h
  cases hp : parse d.combined with
  | error e => rw [hp] at h; cases h
  | ok fs =>
    rw [hp] at h
    obtain ⟨hmain, htest⟩ := Bool.and_eq_true_iff.1 h
    obtain ⟨main, hm, hparent⟩ := (Option.any_eq_true _ _).1 hmain
    have hd : Library.documentAt { source := .outside } { documents := [("A", d)] } "A" = .ok d :=
      rfl
    obtain ⟨o, ho⟩ := exists_overview hd hp hm (Option.isNone_iff_eq_none.1 hparent)
      (finite_namedDictionaries finite_texts_outside _)
    obtain ⟨main', hof⟩ := exists_isOverview hd hp hm ho
    exact ⟨fs, o, main', rfl, htest, ho, hof⟩

/-- The index of an interface with an event handler that is not static. -/
theorem index_agrees_small :
    ∃ (r : Registry) (fs : Fragments) (o : Overview) (index : MemberIndex),
      parse (handlerDocument "").combined = .ok fs ∧
      answerAt { source := .outside } r (overview "A") = some (.ok o) ∧
      outcomeAt { source := .outside } r (memberIndex "A") = .ok index ∧
      index.properties.Perm o.members.propertyIndex ∧ o.members.OmitsHandlers fs := by
  have hroot : (handlerDocument "").isRootWith
      (·.all fun m => !m.isEventHandler || !m.isStatic) = true := by decide +kernel
  obtain ⟨fs, o, main, hp, htest, ho, hof⟩ := exists_of_isRootWith hroot
  obtain ⟨d, fs', index, hd, hp', hindex, -, -, -, -, hproperties, homits, -⟩ := index_agrees ho
  cases hd
  have hfs : fs' = fs := Except.ok.inj (hp'.symm.trans hp)
  subst hfs
  have hstatic : NoStaticHandler fs' := by
    intro m hm hhandler
    have := List.all_eq_true.1 htest m hm
    simpa [hhandler] using this
  exact ⟨_, fs', o, index, hp, ho, hindex, hproperties.2 hstatic, homits.2 hstatic⟩

/-- A static event handler is listed among the static properties, and not in the index. -/
theorem static_handler_listed :
    ∃ (r : Registry) (fs : Fragments) (o : Overview) (index : MemberIndex) (m : Member),
      parse (handlerDocument "static ").combined = .ok fs ∧
      Library.documentAt { source := .outside } r "A" = .ok (handlerDocument "static ") ∧
      answerAt { source := .outside } r (overview "A") = some (.ok o) ∧
      outcomeAt { source := .outside } r (memberIndex "A") = .ok index ∧
      m ∈ firsts (Fragments.members fs) ∧ m.isEventHandler = true ∧
      (∃ e ∈ o.members.propertyList true, e.name = m.nameOrEmpty) ∧
      ¬ index.properties.Perm o.members.propertyIndex := by
  have hroot : (handlerDocument "static ").isRootWith
      (·.any fun m => m.isEventHandler && m.isStatic) = true := by decide +kernel
  obtain ⟨fs, o, main, hp, htest, ho, hof⟩ := exists_of_isRootWith hroot
  obtain ⟨m, hfirst, hm⟩ := List.any_eq_true.1 htest
  obtain ⟨hhandler, hstatic⟩ := Bool.and_eq_true_iff.1 hm
  have hnot : ¬ NoStaticHandler fs := by
    intro h
    rw [h m hfirst hhandler] at hstatic
    cases hstatic
  refine ⟨_, fs, o, _, m, hp, rfl, ho, outcomeAt_memberIndex hof.fragments, hfirst, hhandler,
    ?_, ?_⟩
  · have hlisted : _ ∈ selected fs (propertyTests true) :=
      mem_propertyTests.2 ⟨hfirst, isAttribute_of_isEventHandler hhandler, hstatic, nofun⟩
    obtain ⟨e, he, hfound⟩ := exists_propertyEntry hof.members hlisted
    exact ⟨e, he, name_of_propertyEntry hfound⟩
  · exact fun hperm => hnot ((perm_propertyIndex_iff hof.members (wellNamed_of_parse hp)).1 hperm)

end IdlDocs
