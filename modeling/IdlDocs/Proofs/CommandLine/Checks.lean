import IdlDocs.Proofs.CommandLine.Groups
import Mathlib.Data.List.Nodup
import Mathlib.Data.List.Perm.Basic

/-!
# Checking items

The items of a command line are checked one behind the other.  Whether they pass, and what
they say, does not depend on their order, if no option is given twice.

* `check_eq_ok_iff`: **items pass if there is nothing wrong about each of them, and no option
  is given twice.**
* `valueOf?_eq_some_iff`: the value of an option that is given once.
* `SayTheSame`, `sayTheSame_of_perm`: items that say the same, as they do in any order.
* `readTask_groups`: **what groups behind the command are read as.**
-/

namespace IdlDocs.CommandLine

/-! ## What items say -/

def namesOf (items : List Item) : List OptionName := items.filterMap Item.name?

theorem namesOf_append (is js : List Item) : namesOf (is ++ js) = namesOf is ++ namesOf js :=
  List.filterMap_append

theorem isNamed_iff {items : List Item} {n : OptionName} :
    isNamed items n = true ↔ n ∈ namesOf items := by
  simp [isNamed, namesOf]

theorem isNamed_append (is js : List Item) (n : OptionName) :
    isNamed (is ++ js) n = (isNamed is n || isNamed js n) := List.any_append

theorem valueOf?_append (is js : List Item) (n : OptionName) :
    valueOf? (is ++ js) n = (valueOf? is n).or (valueOf? js n) := List.findSome?_append

theorem mem_namesOf {items : List Item} {n : OptionName} :
    n ∈ namesOf items ↔ ∃ i ∈ items, i.name? = some n := List.mem_filterMap

theorem mem_of_valueOf? {items : List Item} {n : OptionName} {text : String}
    (h : valueOf? items n = some text) : ∃ s, .value n text s ∈ items := by
  obtain ⟨i, hi, hv⟩ := List.exists_of_findSome?_eq_some h
  cases i with
  | value m t s =>
    simp only [Option.ite_none_right_eq_some, beq_iff_eq, Option.some.injEq] at hv
    obtain ⟨rfl, rfl⟩ := hv
    exact ⟨s, hi⟩
  | _ => cases hv

theorem valueOf?_of_not_named {items : List Item} {n : OptionName} (h : isNamed items n = false) :
    valueOf? items n = none := by
  cases hv : valueOf? items n with
  | none => rfl
  | some text =>
    obtain ⟨s, hs⟩ := mem_of_valueOf? hv
    have named := isNamed_iff.2 (mem_namesOf.2 ⟨_, hs, rfl⟩)
    rw [h] at named
    cases named

theorem valueOf?_eq_some_iff {items : List Item} (once : (namesOf items).Nodup) {n : OptionName}
    {text : String} : valueOf? items n = some text ↔ ∃ s, .value n text s ∈ items := by
  refine ⟨mem_of_valueOf?, ?_⟩
  rintro ⟨s, hs⟩
  obtain ⟨before, behind, rfl⟩ := List.append_of_mem hs
  have fresh : isNamed before n = false := by
    rw [Bool.eq_false_iff, Ne, isNamed_iff]
    rw [namesOf_append] at once
    intro hb
    exact List.disjoint_of_nodup_append once hb (mem_namesOf.2 ⟨_, List.mem_cons_self, rfl⟩)
  rw [valueOf?_append, valueOf?_of_not_named fresh]
  simp [valueOf?]

theorem wordOf?_eq_head? (items : List Item) : wordOf? items = (words items).head? := by
  induction items with
  | nil => rfl
  | cons i items ih =>
    cases i with
    | word w => rfl
    | _ => exact ih

/-! ## Faults -/

theorem fault?_eq_none_iff {earlier : List Item} {i : Item} :
    i.fault? earlier = none ↔ i.isValid ∧ ∀ n, i.name? = some n → n ∉ namesOf earlier := by
  cases i with
  | word w => simp [Item.fault?, Item.isValid, Item.name?]
  | question u => simp [Item.fault?, Item.isValid]
  | bare n => simp [Item.fault?, Item.isValid]
  | mark n => simp [Item.fault?, Item.isValid, Item.name?, isNamed_iff]
  | value n text s =>
    simp only [Item.fault?, Item.isValid, Item.name?, isNamed_iff]
    grind

theorem firstFault?_eq_none_iff {earlier items : List Item} (h : (namesOf earlier).Nodup) :
    firstFault? earlier items = none ↔
      (∀ i ∈ items, i.isValid) ∧ (namesOf (earlier ++ items)).Nodup := by
  induction items generalizing earlier with
  | nil => simp [firstFault?, h]
  | cons i items ih =>
    have names : namesOf (earlier ++ [i]) = namesOf earlier ++ i.name?.toList := by
      cases hi : i.name? <;> simp [namesOf, hi]
    rw [firstFault?, Option.or_eq_none_iff, fault?_eq_none_iff, List.forall_mem_cons,
      List.append_cons earlier i items]
    by_cases fresh : (namesOf (earlier ++ [i])).Nodup
    · have hi : ∀ n, i.name? = some n → n ∉ namesOf earlier := by
        intro n hn he
        rw [names, hn] at fresh
        exact List.disjoint_of_nodup_append fresh he List.mem_cons_self
      rw [ih fresh]
      tauto
    · have repeated : ¬ ∀ n, i.name? = some n → n ∉ namesOf earlier := by
        intro hi
        refine fresh (names ▸ List.nodup_append.2 ⟨h, by cases i.name? <;> simp, ?_⟩)
        rintro n he m hm rfl
        exact hi n (Option.mem_toList.1 hm) he
      refine iff_of_false (fun hf => repeated hf.1.2) (fun hf => fresh ?_)
      rw [namesOf_append] at hf
      exact hf.2.of_append_left

/-- **Items pass if there is nothing wrong about each of them, and no option is given
twice.** -/
theorem check_eq_ok_iff {items : List Item} :
    check items = .ok () ↔ (∀ i ∈ items, i.isValid) ∧ (namesOf items).Nodup := by
  have first := @firstFault?_eq_none_iff [] items List.nodup_nil
  rw [List.nil_append] at first
  rw [← first]
  unfold check
  cases firstFault? [] items <;> simp

theorem check_settled {items : List Item} (h : check items = .ok ()) :
    check (settled items) = .ok () := by
  have part : (settled items).Sublist items := by
    unfold settled
    split
    · exact List.dropLast_sublist items
    · exact .refl items
  obtain ⟨valid, once⟩ := check_eq_ok_iff.1 h
  exact check_eq_ok_iff.2 ⟨fun i hi => valid i (part.subset hi), once.sublist (part.filterMap _)⟩

/-! ## What items ask for -/

/-- What `generate` is asked to do about an interface, by some items. -/
def generateTask (interface : String) (items : List Item) : Task :=
  .generate (requestOf interface items) (isNamed items .recursive) (valueOf? items .output)
    (valueOf? items .templates)

/-- What is asked for with `generate` about an interface, by the items of a whole command
line. -/
def generateInvocation (interface : String) (items : List Item) : Invocation where
  config := valueOf? items .config
  mirror := valueOf? items .mirror
  task := generateTask interface items

def SayTheSame (is js : List Item) : Prop :=
  ∀ n ∉ OptionName.global, isNamed is n = isNamed js n ∧ valueOf? is n = valueOf? js n

namespace SayTheSame

variable {is js : List Item} (h : SayTheSame is js)
include h

theorem exclude : exclude is = exclude js := by
  have same : selecting.filter (isNamed is) = selecting.filter (isNamed js) :=
    List.filter_congr fun n hn => (h n (by revert hn; cases n <;> decide)).1
  rw [CommandLine.exclude, CommandLine.exclude, same]

theorem lacksMember : lacksMember is = lacksMember js := by
  have same : selecting.any (isNamed is) = selecting.any (isNamed js) := by
    rw [Bool.eq_iff_iff]
    simp only [List.any_eq_true]
    refine exists_congr fun n => and_congr_right fun hn => ?_
    rw [(h n (by revert hn; cases n <;> decide)).1]
  rw [CommandLine.lacksMember, CommandLine.lacksMember, same, (h .static (by decide)).1]

theorem generateTask (interface : String) :
    generateTask interface is = generateTask interface js := by
  unfold CommandLine.generateTask requestOf selectorOf
  rw [(h .member (by decide)).2, (h .static (by decide)).1, (h .constructor (by decide)).1,
    (h .event (by decide)).2, (h .group (by decide)).2, (h .experimental (by decide)).1,
    (h .recursive (by decide)).1, (h .output (by decide)).2, (h .templates (by decide)).2]

end SayTheSame

/-! ## Any order -/

section Perm

variable {is js : List Item} (same : is.Perm js)
include same

theorem isNamed_perm : isNamed is = isNamed js := by
  funext n
  exact same.any_eq

variable (once : (namesOf is).Nodup)
include once

theorem valueOf?_perm : valueOf? is = valueOf? js := by
  have once' : (namesOf js).Nodup := (same.filterMap _).nodup_iff.1 once
  funext n
  refine Option.ext fun text => ?_
  rw [valueOf?_eq_some_iff once, valueOf?_eq_some_iff once']
  simp only [same.mem_iff]

/-- **The same items say the same in any order.** -/
theorem sayTheSame_of_perm : SayTheSame is js := fun n _ =>
  ⟨congrFun (isNamed_perm same) n, congrFun (valueOf?_perm same once) n⟩

theorem generateInvocation_perm (interface : String) :
    generateInvocation interface is = generateInvocation interface js := by
  unfold generateInvocation
  rw [valueOf?_perm same once, (sayTheSame_of_perm same once).generateTask]

end Perm

/-! ## What is accepted -/

theorem bind_eq_ok {α β : Type} {x : Except Usage α} {f : α → Except Usage β} {b : β} :
    (x >>= f) = .ok b ↔ ∃ a, x = .ok a ∧ f a = .ok b := by
  cases x <;> simp [bind, Except.bind]

theorem taskOf_eq_ok_iff {items : List Item} {t : Task} :
    taskOf .generate items = .ok t ↔ exclude items = false ∧ lacksMember items = false ∧
      ∃ interface, wordOf? items = some interface ∧ t = generateTask interface items := by
  unfold taskOf
  cases exclude items with
  | true => exact iff_of_false (fun h => by cases h) (by simp)
  | false =>
    cases wordOf? items with
    | none => exact iff_of_false (fun h => by cases h) (by simp)
    | some interface =>
      cases lacksMember items with
      | true => exact iff_of_false (fun h => by cases h) (by simp)
      | false =>
        constructor
        · intro h
          cases h
          exact ⟨rfl, rfl, interface, rfl, rfl⟩
        · rintro ⟨-, -, _, hi, rfl⟩
          cases hi
          rfl

theorem eq_generate_of_taskOf {c : CommandName} {items : List Item} {r : Request}
    {recursive : Bool} {output templates : Option String}
    (h : taskOf c items = .ok (.generate r recursive output templates)) : c = .generate := by
  unfold taskOf at h
  revert h
  cases exclude items with
  | true => intro h; cases h
  | false =>
    cases c with
    | generate => exact fun _ => rfl
    | list => cases wordOf? items <;> (intro h; cases h)
    | groups => intro h; cases h

theorem readTask_eq_ok_iff {c : CommandName} {as : List String} {t : Task} {items : List Item} :
    readTask c as = .ok (t, items) ↔
      (read (.command c) c.takesInterface as).Passes ∧
        (read (.command c) c.takesInterface as).items = items ∧ (namesOf items).Nodup ∧
        taskOf c items = .ok t := by
  unfold readTask
  simp only
  rcases read (.command c) c.takesInterface as with ⟨read, ending⟩
  cases ending with
  | done =>
    simp only [bind_eq_ok]
    constructor
    · rintro ⟨⟨⟩, hc, t', ht, h⟩
      obtain ⟨valid, once⟩ := check_eq_ok_iff.1 hc
      cases h
      exact ⟨⟨rfl, valid⟩, rfl, once, ht⟩
    · rintro ⟨passes, rfl, once, ht⟩
      exact ⟨(), check_eq_ok_iff.2 ⟨passes.valid, once⟩, t, ht, rfl⟩
  | stopped u =>
    refine iff_of_false (fun h => ?_) (fun h => absurd h.1.done (by simp))
    obtain ⟨_, -, h⟩ := bind_eq_ok.1 h
    cases h
  | command c behind =>
    exact iff_of_false (fun h => by cases h) (fun h => absurd h.1.done (by simp))

/-- **What groups behind the command are read as.** -/
theorem readTask_groups {gs : List Group} (hs : ∀ g ∈ gs, "--" ∉ g.arguments) {t : Task}
    {items : List Item} :
    readTask .generate (argumentsOf gs) = .ok (t, items) ↔
      (∀ g ∈ gs, g.IsValid) ∧ (namesOf items).Nodup ∧ items = itemsOf gs ∧
        exclude items = false ∧ lacksMember items = false ∧
        ∃ interface, words items = [interface] ∧ t = generateTask interface items := by
  rw [readTask_eq_ok_iff, taskOf_eq_ok_iff,
    show CommandName.generate.takesInterface = true from rfl, passes_read_iff hs]
  constructor
  · rintro ⟨⟨valid, room⟩, hi, once, hx, hm, interface, hw, ht⟩
    rw [items_read hs ((passes_read_iff hs true).2 ⟨valid, room⟩)] at hi
    subst hi
    refine ⟨valid, once, rfl, hx, hm, interface, ?_, ht⟩
    rw [wordOf?_eq_head?] at hw
    obtain ⟨rest, hr⟩ := List.head?_eq_some_iff.1 hw
    rw [hr] at room ⊢
    rw [List.eq_nil_of_length_eq_zero (l := rest) (by simpa using room)]
  · rintro ⟨valid, once, rfl, hx, hm, interface, hw, ht⟩
    have room : (words (itemsOf gs)).length ≤ true.toNat := by simp [hw]
    refine ⟨⟨valid, room⟩, ?_, once, hx, hm, interface, by simp [wordOf?_eq_head?, hw], ht⟩
    exact items_read hs ((passes_read_iff hs true).2 ⟨valid, room⟩)

theorem parse_eq_ok_iff {as : List String} {v : Invocation} :
    Invocation.parse as = .ok v ↔ ∃ c behind before items,
      read .program false as = ⟨before, .command c behind⟩ ∧ check before = .ok () ∧
        readTask c behind = .ok (v.task, items) ∧
        v.config = (valueOf? items .config).or (valueOf? before .config) ∧
        v.mirror = (valueOf? items .mirror).or (valueOf? before .mirror) := by
  unfold Invocation.parse
  simp only
  rcases read .program false as with ⟨before, ending⟩
  cases ending with
  | done =>
    refine iff_of_false (fun h => ?_) (by simp)
    obtain ⟨_, -, h⟩ := bind_eq_ok.1 h
    cases h
  | stopped u =>
    refine iff_of_false (fun h => ?_) (by simp)
    obtain ⟨_, -, h⟩ := bind_eq_ok.1 h
    cases h
  | command c behind =>
    simp only [bind_eq_ok, Reading.mk.injEq, Ending.command.injEq]
    constructor
    · rintro ⟨_, -, ⟨t, items⟩, ht, _, hb, h⟩
      cases h
      exact ⟨c, behind, before, items, ⟨rfl, rfl, rfl⟩, hb, ht, rfl, rfl⟩
    · rintro ⟨_, _, _, items, ⟨rfl, rfl, rfl⟩, hb, ht, hc, hm⟩
      refine ⟨(), check_settled hb, (v.task, items), ht, (), hb, ?_⟩
      simp only [← hc, ← hm]
      rfl

end IdlDocs.CommandLine
