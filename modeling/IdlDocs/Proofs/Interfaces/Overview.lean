import IdlDocs.Proofs.Description.Ends
import IdlDocs.Proofs.Interfaces.Composed
import IdlDocs.Proofs.Interfaces.Listed

/-!
# What overviews list

The four lists of an overview are the members that pass their tests, in another order, each
with its name and, for a property, the text of its type.  There are no lists where one of these
texts does not come to an end.

* `foundAt_propertyEntry`: the entry of a property.
* `MemberGroups.ofEntries`, `ListedBy`, `exists_listedBy`: **the four lists**, by the entries of the
  properties.
* `mem_propertyList_iff`, `mem_methodList_iff`: what is listed.
* `answerAt_overview`, `answerAt_overview_of_main`: an overview, by the definitions of the
  interface and its parent.
* `IsOverview`, `exists_of_overview`: **what an overview is made of.**
* `exists_overview_of_isRoot`: a test for interfaces that have an overview.
-/

namespace IdlDocs

open Idl

variable {l : Library} {r : Registry}

/-! ## Entries -/

theorem foundAt_formatType (depth : Nat) (t : TypeExpr) :
    foundAt l r (formatType depth t) =
      (foundAt l r (describe t)).map fun d => d.render depth := by
  unfold formatType
  rw [(Ends.describe t).foundAt_bind fun _ => .found _]
  cases foundAt l r (describe t) <;> rfl

theorem foundAt_typeText {m : Member} {t : TypeExpr} (h : m.type = some t) :
    foundAt l r (typeText m) = foundAt l r (formatType listItemDepth t) := by
  unfold typeText
  rw [h]

theorem foundAt_propertyEntry (m : Member) :
    foundAt l r (propertyEntry m) =
      (foundAt l r (typeText m)).map (PropertyEntry.ofMember m) := by
  unfold propertyEntry
  rw [(Ends.typeText m).foundAt_bind fun _ => .found _]
  cases foundAt l r (typeText m) <;> rfl

theorem exists_of_propertyEntry {m : Member} {e : PropertyEntry}
    (h : foundAt l r (propertyEntry m) = some e) :
    ∃ type, foundAt l r (typeText m) = some type ∧ e = .ofMember m type := by
  rw [foundAt_propertyEntry] at h
  obtain ⟨type, htype, he⟩ := Option.map_eq_some_iff.1 h
  exact ⟨type, htype, he.symm⟩

theorem name_of_propertyEntry {m : Member} {e : PropertyEntry}
    (h : foundAt l r (propertyEntry m) = some e) : e.name = m.nameOrEmpty := by
  obtain ⟨type, -, rfl⟩ := exists_of_propertyEntry h
  rfl

/-- There is a function that gives the entries of all properties whose types come to an end. -/
theorem exists_entry (l : Library) (r : Registry) : ∃ entry : Member → PropertyEntry,
    (∀ m, (entry m).name = m.nameOrEmpty) ∧
      ∀ m e, foundAt l r (propertyEntry m) = some e → entry m = e := by
  -- What the function says of the other ones does not matter.
  refine ⟨fun m => .ofMember m ((foundAt l r (typeText m)).getD ""), fun _ => rfl, ?_⟩
  intro m e he
  obtain ⟨type, htype, rfl⟩ := exists_of_propertyEntry he
  dsimp only
  rw [htype, Option.getD_some]

/-- A function that agrees with all results there are gives a list of results. -/
theorem mapM_eq_some_iff_map {α β : Type} {f : α → Option β} {g : α → β}
    (hg : ∀ a b, f a = some b → g a = b) {as : List α} {bs : List β} :
    as.mapM f = some bs ↔ bs = as.map g ∧ ∀ a ∈ as, f a = some (g a) := by
  induction as generalizing bs with
  | nil => simp [eq_comm]
  | cons a as ih =>
    rw [List.mapM_cons, List.forall_mem_cons]
    constructor
    · intro h
      obtain ⟨b, hb, h⟩ := Option.bind_eq_some_iff.1 h
      obtain ⟨bs, hbs, h⟩ := Option.bind_eq_some_iff.1 h
      cases h
      obtain ⟨rfl, hall⟩ := ih.1 hbs
      have hgb := hg a b hb
      subst hgb
      exact ⟨rfl, hb, hall⟩
    · rintro ⟨rfl, ha, hall⟩
      rw [ha, ih.2 ⟨rfl, hall⟩]
      rfl

/-! ## The four lists -/

def MemberGroups.propertyList (g : MemberGroups) (isStatic : Bool) : List PropertyEntry :=
  (if isStatic then g.staticProperties else g.properties).getD []

def MemberGroups.methodList (g : MemberGroups) (isStatic : Bool) : List MethodEntry :=
  (if isStatic then g.staticMethods else g.methods).getD []

def propertyTests (isStatic : Bool) : List Test :=
  if isStatic then [Member.isAttribute, Member.isStatic]
  else [Member.isAttribute, Test.not Member.isStatic, Test.not Member.isEventHandler]

def methodTests (isStatic : Bool) : List Test :=
  if isStatic then [Member.isOperation, Member.isNamed, Member.isStatic]
  else [Member.isOperation, Member.isNamed, Test.not Member.isStatic]

def MemberGroups.ofEntries (entry : Member → PropertyEntry) (fs : Fragments) : MemberGroups where
  staticProperties := (selectSorted fs (propertyTests true)).map (·.map entry)
  properties := (selectSorted fs (propertyTests false)).map (·.map entry)
  staticMethods := (selectSorted fs (methodTests true)).map (·.map MethodEntry.ofMember)
  methods := (selectSorted fs (methodTests false)).map (·.map MethodEntry.ofMember)

theorem propertyList_ofEntries (entry : Member → PropertyEntry) (fs : Fragments)
    (isStatic : Bool) : (MemberGroups.ofEntries entry fs).propertyList isStatic =
      ((selectSorted fs (propertyTests isStatic)).map (·.map entry)).getD [] := by
  cases isStatic <;> rfl

theorem methodList_ofEntries (entry : Member → PropertyEntry) (fs : Fragments)
    (isStatic : Bool) : (MemberGroups.ofEntries entry fs).methodList isStatic =
      ((selectSorted fs (methodTests isStatic)).map (·.map MethodEntry.ofMember)).getD [] := by
  cases isStatic <;> rfl

/-- Sorting selected members does not change which ones they are, nor how often. -/
theorem perm_selectSorted {α : Type} (fs : Fragments) (tests : List Test) (f : Member → α) :
    (((selectSorted fs tests).map (·.map f)).getD []).Perm ((selected fs tests).map f) := by
  unfold selectSorted select
  cases selected fs tests with
  | nil => exact .refl []
  | cons m ms => exact (List.mergeSort_perm (m :: ms) _).map f

theorem mem_selectSorted_iff {α : Type} {fs : Fragments} {tests : List Test} {f : Member → α}
    {a : α} :
    a ∈ ((selectSorted fs tests).map (·.map f)).getD [] ↔ ∃ m ∈ selected fs tests, f m = a :=
  (perm_selectSorted fs tests f).mem_iff.trans List.mem_map

/-- The four lists have these entries of properties. -/
structure ListedBy (l : Library) (r : Registry) (fs : Fragments) (g : MemberGroups)
    (entry : Member → PropertyEntry) : Prop where
  groups : g = .ofEntries entry fs
  name : ∀ m, (entry m).name = m.nameOrEmpty
  found : ∀ isStatic, ∀ m ∈ selected fs (propertyTests isStatic),
    foundAt l r (propertyEntry m) = some (entry m)

theorem foundAt_propertyEntries_eq_some_iff {entry : Member → PropertyEntry}
    (hentry : ∀ m e, foundAt l r (propertyEntry m) = some e → entry m = e)
    {found : Option (List Member)} {es : Option (List PropertyEntry)} :
    foundAt l r (propertyEntries found) = some es ↔ es = found.map (·.map entry) ∧
      ∀ m ∈ found.getD [], foundAt l r (propertyEntry m) = some (entry m) := by
  cases found with
  | none =>
    have hnone : foundAt l r (propertyEntries none) = some none := rfl
    simp [hnone, eq_comm]
  | some ms =>
    unfold propertyEntries
    rw [(Ends.searchAll Ends.propertyEntry ms).foundAt_bind fun _ => .found _,
      Ends.foundAt_mapM Ends.propertyEntry, Option.bind_eq_some_iff]
    simp only [mapM_eq_some_iff_map hentry]
    constructor
    · rintro ⟨xs, ⟨rfl, hall⟩, hes⟩
      cases hes
      exact ⟨rfl, hall⟩
    · rintro ⟨rfl, hall⟩
      exact ⟨_, ⟨rfl, hall⟩, rfl⟩

/-- **The four lists** are there where all entries of properties are. -/
theorem foundAt_memberGroups_eq_some_iff {entry : Member → PropertyEntry}
    (hentry : ∀ m e, foundAt l r (propertyEntry m) = some e → entry m = e) {fs : Fragments}
    {g : MemberGroups} :
    foundAt l r (memberGroups fs) = some g ↔ g = .ofEntries entry fs ∧
      ∀ isStatic, ∀ m ∈ (selectSorted fs (propertyTests isStatic)).getD [],
        foundAt l r (propertyEntry m) = some (entry m) := by
  unfold memberGroups
  dsimp only
  rw [(Ends.propertyEntries _).foundAt_bind fun _ => (Ends.propertyEntries _).search fun _ =>
    .found _, Option.bind_eq_some_iff]
  constructor
  · rintro ⟨statics, hstatics, h⟩
    rw [(Ends.propertyEntries _).foundAt_bind fun _ => .found _] at h
    obtain ⟨plains, hplains, h⟩ := Option.bind_eq_some_iff.1 h
    cases h
    obtain ⟨rfl, hs⟩ := (foundAt_propertyEntries_eq_some_iff hentry).1 hstatics
    obtain ⟨rfl, hp⟩ := (foundAt_propertyEntries_eq_some_iff hentry).1 hplains
    exact ⟨rfl, Bool.forall_bool.2 ⟨hp, hs⟩⟩
  · rintro ⟨rfl, hall⟩
    have hstatics := (foundAt_propertyEntries_eq_some_iff hentry).2 ⟨rfl, hall true⟩
    have hplains := (foundAt_propertyEntries_eq_some_iff hentry).2 ⟨rfl, hall false⟩
    refine ⟨_, hstatics, ?_⟩
    rw [(Ends.propertyEntries _).foundAt_bind fun _ => .found _]
    exact Option.bind_eq_some_iff.2 ⟨_, hplains, rfl⟩

theorem mem_getD_selectSorted {fs : Fragments} {tests : List Test} {m : Member} :
    m ∈ (selectSorted fs tests).getD [] ↔ m ∈ selected fs tests := by
  simpa using (perm_selectSorted fs tests id).mem_iff

/-- **Lists that have been found have the entries that have been found.** -/
theorem exists_listedBy {fs : Fragments} {g : MemberGroups}
    (h : foundAt l r (memberGroups fs) = some g) : ∃ entry, ListedBy l r fs g entry := by
  obtain ⟨entry, hname, hentry⟩ := exists_entry l r
  obtain ⟨hg, hall⟩ := (foundAt_memberGroups_eq_some_iff hentry).1 h
  exact ⟨entry, hg, hname, fun isStatic m hm => hall isStatic m (mem_getD_selectSorted.2 hm)⟩

theorem mem_propertyTests {fs : Fragments} {isStatic : Bool} {m : Member} :
    m ∈ selected fs (propertyTests isStatic) ↔ m ∈ firsts (Fragments.members fs) ∧
      m.isAttribute = true ∧ m.isStatic = isStatic ∧
        (isStatic = false → m.isEventHandler = false) := by
  rw [mem_selected]
  cases isStatic <;> simp [propertyTests, Test.not]

theorem mem_methodTests {fs : Fragments} {isStatic : Bool} {m : Member} :
    m ∈ selected fs (methodTests isStatic) ↔ m ∈ firsts (Fragments.members fs) ∧
      m.isOperation = true ∧ m.isNamed = true ∧ m.isStatic = isStatic := by
  rw [mem_selected]
  cases isStatic <;> simp [methodTests, Test.not]

section Found

variable {fs : Fragments} {g : MemberGroups} (h : foundAt l r (memberGroups fs) = some g)

include h

/-- **A property is listed for each first attribute or constant** that is static or not, and
for instances no event handler. -/
theorem mem_propertyList_iff {isStatic : Bool} {e : PropertyEntry} :
    e ∈ g.propertyList isStatic ↔
      ∃ m ∈ firsts (Fragments.members fs), m.isAttribute = true ∧ m.isStatic = isStatic ∧
        (isStatic = false → m.isEventHandler = false) ∧
        foundAt l r (propertyEntry m) = some e := by
  obtain ⟨entry, rfl, -, hfound⟩ := exists_listedBy h
  rw [propertyList_ofEntries, mem_selectSorted_iff]
  constructor
  · rintro ⟨m, hm, rfl⟩
    obtain ⟨hfirst, hattr, hstatic, hplain⟩ := mem_propertyTests.1 hm
    exact ⟨m, hfirst, hattr, hstatic, hplain, hfound isStatic m hm⟩
  · rintro ⟨m, hfirst, hattr, hstatic, hplain, he⟩
    have hm := mem_propertyTests.2 ⟨hfirst, hattr, hstatic, hplain⟩
    exact ⟨m, hm, Option.some.inj ((hfound isStatic m hm).symm.trans he)⟩

theorem exists_propertyEntry {isStatic : Bool} {m : Member}
    (hm : m ∈ selected fs (propertyTests isStatic)) :
    ∃ e ∈ g.propertyList isStatic, foundAt l r (propertyEntry m) = some e := by
  obtain ⟨entry, rfl, -, hfound⟩ := exists_listedBy h
  refine ⟨entry m, ?_, hfound isStatic m hm⟩
  rw [propertyList_ofEntries, mem_selectSorted_iff]
  exact ⟨m, hm, rfl⟩

/-- **A method is listed for each first operation with a name** that is static or not. -/
theorem mem_methodList_iff {isStatic : Bool} {e : MethodEntry} :
    e ∈ g.methodList isStatic ↔
      ∃ m ∈ firsts (Fragments.members fs), m.isOperation = true ∧ m.isNamed = true ∧
        m.isStatic = isStatic ∧ MethodEntry.ofMember m = e := by
  obtain ⟨entry, rfl, -, -⟩ := exists_listedBy h
  rw [methodList_ofEntries, mem_selectSorted_iff]
  refine exists_congr fun m => ?_
  rw [mem_methodTests]
  simp only [and_assoc]

end Found

/-! ## Overviews -/

/-- What an overview is made of: a document, its definitions, and the main one of these. -/
structure IsOverview (l : Library) (r : Registry) (name : String) (o : Overview)
    (fs : Fragments) (main : Interface) : Prop where
  fragments : outcomeAt l r (fragmentsOf name) = .ok fs
  mainInterface : Fragments.mainInterface? fs = some main
  wellFormed : ∀ m ∈ Fragments.members fs, m.WellFormed
  name : o.name = name
  isSecure : o.isSecure = main.isSecure
  hasConstructor : o.hasConstructor = hasConstructor fs
  members : foundAt l r (memberGroups fs) = some o.members
  events : o.events = sortNames (eventNames fs)

theorem exists_of_definitionsOf {name : String} {d : Document} {fs : Fragments}
    (h : outcomeAt l r (Registry.definitionsOf name) = .ok (d, fs)) :
    l.documentAt r name = .ok d ∧ parse d.combined = .ok fs := by
  unfold Registry.definitionsOf at h
  rw [outcomeAt_then, outcomeAt_document] at h
  obtain ⟨d', hd, hrest⟩ := bind_eq_ok_iff.1 h
  change outcomeAt l _ (liftM (parseFor name d'.combined) >>= _) = _ at hrest
  rw [outcomeAt_ofExcept_then] at hrest
  obtain ⟨fs', hparse, hpair⟩ := bind_eq_ok_iff.1 hrest
  cases hpair
  unfold parseFor at hparse
  cases hp : parse d.combined with
  | error e => rw [hp] at hparse; cases hparse
  | ok fs' => rw [hp] at hparse; cases hparse; exact ⟨hd, rfl⟩

theorem interfaceOf_eq_ok_iff {name : String} {fs : Fragments} {main : Interface} :
    interfaceOf name fs = .ok main ↔ Fragments.mainInterface? fs = some main := by
  unfold interfaceOf
  cases Fragments.mainInterface? fs <;> simp

/-- **An overview**, by the definitions of the interface and the lists of its parent. -/
theorem answerAt_overview (name : String) :
    answerAt l r (overview name) =
      andThen (some (outcomeAt l r (Registry.definitionsOf name))) fun found =>
        andThen (some (interfaceOf name found.2)) fun main =>
          (foundAt l r (memberGroups found.2)).bind fun members =>
            (answerAt l r (parentGroups found.1 main)).map (·.map fun parent =>
              { name, members, parent
                isSecure := main.isSecure
                hasConstructor := hasConstructor found.2
                events := sortNames (eventNames found.2) }) := by
  refine ((Ends.ofAttempt (.definitionsOf name)).answerAt_bind fun found => ?_).trans ?_
  · refine (Ends.answer (interfaceOf name found.2)).inquire fun main => ?_
    refine (Ends.memberGroups found.2).ofSearch.inquire fun _ => ?_
    exact (Ends.parentGroups found.1 main).inquire fun _ => .answer (.ok _)
  rw [answerAt_ofAttempt]
  congr 1
  funext found
  refine ((Ends.answer (interfaceOf name found.2)).answerAt_bind fun main => ?_).trans ?_
  · refine (Ends.memberGroups found.2).ofSearch.inquire fun _ => ?_
    exact (Ends.parentGroups found.1 main).inquire fun _ => .answer (.ok _)
  rw [answerAt_ofExcept]
  congr 1
  funext main
  refine ((Ends.memberGroups found.2).ofSearch.answerAt_bind fun _ =>
    (Ends.parentGroups found.1 main).inquire fun _ => .answer (.ok _)).trans ?_
  rw [answerAt_ofSearch, andThen_map_ok]
  refine Option.bind_congr fun members _ => ?_
  exact ((Ends.parentGroups found.1 main).answerAt_bind fun _ => .answer (.ok _)).trans
    (andThen_ok _ _)

/-- **The overview of an interface whose definitions can be read.** -/
theorem answerAt_overview_of_main {name : String} {d : Document} {fs : Fragments}
    {main : Interface} (hd : l.documentAt r name = .ok d) (hp : parse d.combined = .ok fs)
    (hm : Fragments.mainInterface? fs = some main) :
    answerAt l r (overview name) =
      (foundAt l r (memberGroups fs)).bind fun members =>
        (answerAt l r (parentGroups d main)).map (·.map fun parent =>
          { name, members, parent
            isSecure := main.isSecure
            hasConstructor := hasConstructor fs
            events := sortNames (eventNames fs) }) := by
  rw [answerAt_overview, outcomeAt_definitionsOf hd hp]
  change andThen (some (interfaceOf name fs)) _ = _
  rw [interfaceOf_eq_ok_iff.2 hm]
  rfl

/-- **Every overview is made of the definitions of its interface.** -/
theorem exists_of_overview {name : String} {o : Overview}
    (h : answerAt l r (overview name) = some (.ok o)) :
    (∃ d, l.documentAt r name = .ok d) ∧ ∃ fs main, IsOverview l r name o fs main := by
  rw [answerAt_overview] at h
  obtain ⟨⟨d, fs⟩, hfound, h⟩ := andThen_eq_ok_iff.1 h
  obtain ⟨main, hmain, h⟩ := andThen_eq_ok_iff.1 h
  obtain ⟨members, hmembers, h⟩ := Option.bind_eq_some_iff.1 h
  obtain ⟨parent, -, h⟩ := Option.map_eq_some_iff.1 h
  obtain ⟨parent, -, rfl⟩ := map_eq_ok_iff.1 h
  obtain ⟨hd, hp⟩ := exists_of_definitionsOf (Option.some.inj hfound)
  have hm := interfaceOf_eq_ok_iff.1 (Option.some.inj hmain)
  exact ⟨⟨d, hd⟩, fs, main, outcomeAt_fragmentsOf hd hp (hm ▸ rfl), hm, wellFormed_of_parse hp,
    rfl, rfl, rfl, hmembers, rfl⟩

section Root

variable {name : String} {d : Document} {fs : Fragments} {main : Interface}
  (hd : l.documentAt r name = .ok d) (hp : parse d.combined = .ok fs)
  (hm : Fragments.mainInterface? fs = some main) (hparent : main.parent = none)

include hd hp hm hparent

/-- **An interface without a parent has an overview** where its definitions can be read and its
lists are there. -/
theorem exists_overview_of_groups {g : MemberGroups}
    (hg : foundAt l r (memberGroups fs) = some g) :
    ∃ o, answerAt l r (overview name) = some (.ok o) := by
  have hnone : answerAt l r (parentGroups d main) = some (.ok none) := by
    unfold parentGroups
    rw [hparent]
    rfl
  rw [answerAt_overview_of_main hd hp hm, hg, Option.bind_some, hnone]
  exact ⟨_, rfl⟩

/-- So it has where fields name finitely many dictionaries. -/
theorem exists_overview (hfin : (l.namedDictionaries r).Finite) :
    ∃ o, answerAt l r (overview name) = some (.ok o) := by
  obtain ⟨g, hg⟩ := (Ends.memberGroups fs).exists_found hfin
  exact exists_overview_of_groups hd hp hm hparent hg

end Root

/-- Tells whether a name is that of an interface without a parent, whose definitions pass a
test. -/
def Library.isRoot (l : Library) (name : String) (test : Fragments → Bool) : Bool :=
  match l.documentAt {} name with
  | .error _ => false
  | .ok d =>
    match parse d.combined with
    | .error _ => false
    | .ok fs => (Fragments.mainInterface? fs).any (·.parent.isNone) && test fs

theorem exists_of_isRoot {name : String} {test : Fragments → Bool}
    (h : l.isRoot name test = true) :
    ∃ d fs main, l.documentAt {} name = .ok d ∧ parse d.combined = .ok fs ∧
      Fragments.mainInterface? fs = some main ∧ main.parent = none ∧ test fs = true := by
  unfold Library.isRoot at h
  cases hd : l.documentAt {} name with
  | error e => rw [hd] at h; cases h
  | ok d =>
    rw [hd] at h
    dsimp only at h
    cases hp : parse d.combined with
    | error e => rw [hp] at h; cases h
    | ok fs =>
      rw [hp] at h
      dsimp only at h
      rw [Bool.and_eq_true, Option.any_eq_true] at h
      obtain ⟨⟨main, hm, hparent⟩, htest⟩ := h
      exact ⟨d, fs, main, rfl, hp, hm, Option.isNone_iff_eq_none.1 hparent, htest⟩

theorem exists_isOverview {name : String} {d : Document} {fs : Fragments} {main : Interface}
    (hd : l.documentAt r name = .ok d) (hp : parse d.combined = .ok fs)
    (hm : Fragments.mainInterface? fs = some main) {o : Overview}
    (ho : answerAt l r (overview name) = some (.ok o)) :
    ∃ main, IsOverview l r name o fs main := by
  obtain ⟨-, fs', main', hof⟩ := exists_of_overview ho
  have hf := hof.fragments
  rw [outcomeAt_fragmentsOf hd hp (hm ▸ rfl)] at hf
  cases hf
  exact ⟨main', hof⟩

/-- **An interface without a parent has an overview**, and its definitions have passed the
test. -/
theorem exists_overview_of_isRoot (hfin : l.source.texts.Finite) {name : String}
    {test : Fragments → Bool} (h : l.isRoot name test = true) :
    ∃ o fs main, answerAt l {} (overview name) = some (.ok o) ∧ IsOverview l {} name o fs main ∧
      test fs = true := by
  obtain ⟨d, fs, main, hd, hp, hm, hparent, htest⟩ := exists_of_isRoot h
  obtain ⟨o, ho⟩ := exists_overview hd hp hm hparent (finite_namedDictionaries hfin _)
  obtain ⟨main', hof⟩ := exists_isOverview hd hp hm ho
  exact ⟨o, fs, main', ho, hof, htest⟩

end IdlDocs
