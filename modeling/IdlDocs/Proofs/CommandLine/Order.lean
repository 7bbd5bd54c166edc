import IdlDocs.Proofs.CommandLine.Checks

/-!
# Command lines in any order

A command line of `generate` is made of groups of arguments around the command: global
options on both sides, and the interface and the other options behind it.

* `Line`: such a command line.
* `Line.parse_eq_ok_iff`: what is accepted, and **what it is read as**: only the items count.
* `Line.Means`: what is asked for, option by option.
* `generate_in_any_order`: every accepted command line is a `Line`, the order of its groups
  does not matter, and which page is wanted is said by the options alone.
* `static_without_member`: a member may be missing that is said to be static.
-/

namespace IdlDocs.CommandLine

/-- A command line of `generate` without a separator, in groups. -/
structure Line where
  /-- The groups before the command. -/
  front : List Group
  /-- The groups behind the command. -/
  behind : List Group
  fits : ∀ g ∈ front, g.IsGlobal
  unseparated : ∀ g ∈ front ++ behind, "--" ∉ g.arguments

namespace Line

variable (x : Line)

/-- The arguments of a command line. -/
def arguments : List String := argumentsOf x.front ++ "generate" :: argumentsOf x.behind

/-- The groups of a command line, on both sides of the command. -/
def groups : List Group := x.front ++ x.behind

/-- The items of a command line. -/
def items : List Item := itemsOf x.groups

/-- The options of a command line. -/
def options : List OptionName := namesOf x.items

def Gives (n : OptionName) (text : String) : Prop := ∃ s, Item.value n text s ∈ x.items

def Selects : Selector → Prop
  | .overview => .member ∉ x.options ∧ .constructor ∉ x.options ∧ .event ∉ x.options
  | .constructor => .constructor ∈ x.options
  | .member name isStatic => x.Gives .member name ∧ (isStatic = true ↔ .static ∈ x.options)
  | .event name => x.Gives .event name

/-! ## The items of both sides -/

theorem items_eq : x.items = itemsOf x.front ++ itemsOf x.behind := List.filterMap_append

theorem name_of_front {i : Item} (hi : i ∈ itemsOf x.front) :
    ∃ n ∈ OptionName.global, i.name? = some n := by
  obtain ⟨g, hg, hgi⟩ := mem_itemsOf.1 hi
  obtain ⟨n, hn, j, hj, hjn⟩ := x.fits g hg
  rw [hgi] at hj
  cases hj
  exact ⟨n, hn, hjn⟩

theorem words_items : words x.items = words (itemsOf x.behind) := by
  have none : words (itemsOf x.front) = [] := by
    refine List.filterMap_eq_nil_iff.2 fun i hi => ?_
    obtain ⟨n, -, hn⟩ := x.name_of_front hi
    cases i <;> first | rfl | cases hn
  rw [items_eq, words, List.filterMap_append]
  exact congrArg (· ++ words (itemsOf x.behind)) none

theorem sayTheSame_behind : SayTheSame x.items (itemsOf x.behind) := by
  intro n hn
  have unnamed : isNamed (itemsOf x.front) n = false := by
    rw [Bool.eq_false_iff, Ne, isNamed_iff, mem_namesOf]
    rintro ⟨i, hi, hin⟩
    obtain ⟨m, hm, him⟩ := x.name_of_front hi
    rw [hin] at him
    cases him
    exact hn hm
  rw [items_eq]
  constructor
  · rw [isNamed_append, unnamed, Bool.false_or]
  · rw [valueOf?_append, valueOf?_of_not_named unnamed, Option.none_or]

/-! ## What is accepted -/

/-- There is nothing wrong about the groups of a command line. -/
structure Passes : Prop where
  valid : ∀ g ∈ x.groups, g.IsValid
  exclusive : exclude x.items = false
  member : lacksMember x.items = false

/-- **What a command line is read as, by its items.** -/
theorem parse_eq_ok_iff (once : x.options.Nodup) {v : Invocation} :
    Invocation.parse x.arguments = .ok v ↔
      x.Passes ∧ ∃ interface, words x.items = [interface] ∧
        v = generateInvocation interface x.items := by
  have unseparated : ∀ g ∈ x.behind, "--" ∉ g.arguments :=
    fun g hg => x.unseparated g (List.mem_append_right _ hg)
  have sides : (namesOf (itemsOf x.front)).Nodup ∧ (namesOf (itemsOf x.behind)).Nodup := by
    rw [options, items_eq, namesOf_append] at once
    exact ⟨once.of_append_left, once.of_append_right⟩
  -- the value behind the command is the one that counts, but there is only one
  have value (n : OptionName) : valueOf? x.items n =
      (valueOf? (itemsOf x.behind) n).or (valueOf? (itemsOf x.front) n) := by
    have swapped : x.items.Perm (itemsOf x.behind ++ itemsOf x.front) :=
      x.items_eq ▸ List.perm_append_comm
    rw [valueOf?_perm swapped once, valueOf?_append]
  have same := x.sayTheSame_behind
  rw [CommandLine.parse_eq_ok_iff, arguments, read_program x.fits]
  constructor
  · rintro ⟨c, _, _, items, hr, hb, ht, hc, hm⟩
    cases hr
    obtain ⟨valid, -, rfl, hx, hl, interface, hw, ht⟩ := (readTask_groups unseparated).1 ht
    have front := isValid_of_global x.fits (check_eq_ok_iff.1 hb).1
    refine ⟨⟨List.forall_mem_append.2 ⟨front, valid⟩, same.exclude.trans hx,
      same.lacksMember.trans hl⟩, interface, x.words_items.trans hw, ?_⟩
    obtain ⟨config, mirror, task⟩ := v
    simp only at hc hm ht
    rw [generateInvocation, same.generateTask, value, value, hc, hm, ht]
  · rintro ⟨⟨valid, hx, hl⟩, interface, hw, rfl⟩
    obtain ⟨front, behind⟩ := List.forall_mem_append.1 valid
    refine ⟨.generate, _, itemsOf x.front, itemsOf x.behind, rfl,
      check_eq_ok_iff.2 ⟨isValid_of_mem_itemsOf front, sides.1⟩, (readTask_groups unseparated).2
        ⟨behind, sides.2, rfl, same.exclude.symm.trans hx, same.lacksMember.symm.trans hl,
          interface, x.words_items.symm.trans hw, same.generateTask interface⟩, value _, value _⟩

/-! ## What is asked for -/

theorem mem_options_iff {n : OptionName} (hn : n.takesValue) :
    n ∈ x.options ↔ ∃ text, x.Gives n text := by
  constructor
  · intro h
    obtain ⟨i, hi, hin⟩ := mem_namesOf.1 h
    obtain ⟨g, -, hgi⟩ := mem_itemsOf.1 hi
    rcases Group.item_cases hgi with ⟨w, -, -, rfl⟩ | ⟨m, -, hm, -, rfl⟩ | ⟨m, text, -, -, rfl⟩ |
      ⟨m, text, -, -, -, -, rfl⟩
    · cases hin
    · cases hin
      rw [hm] at hn
      cases hn
    · cases hin
      exact ⟨text, false, hi⟩
    · cases hin
      exact ⟨text, true, hi⟩
  · rintro ⟨text, s, hs⟩
    exact mem_namesOf.2 ⟨_, hs, rfl⟩

/-- What an accepted command line asks for, option by option. -/
structure Means (v : Invocation) (r : Request) (recursive : Bool)
    (output templates : Option String) : Prop where
  task : v.task = .generate r recursive output templates
  /-- There is one word, the interface. -/
  interface : words x.items = [r.interface]
  /-- The options select one page only. -/
  selector : ∀ s, x.Selects s ↔ s = r.selector
  exclusive : ∀ m ∈ selecting, ∀ n ∈ selecting, m ∈ x.options → n ∈ x.options → m = n
  /-- The static member is given, if no other option says which pages are wanted. -/
  static : .static ∈ x.options → (.member ∈ x.options ↔
    .constructor ∉ x.options ∧ .event ∉ x.options ∧ .recursive ∉ x.options)
  group : ∀ text, r.group = some text ↔ x.Gives .group text
  experimental : r.experimental = true ↔ .experimental ∈ x.options
  recursive : recursive = true ↔ .recursive ∈ x.options
  output : ∀ text, output = some text ↔ x.Gives .output text
  templates : ∀ text, templates = some text ↔ x.Gives .templates text
  config : ∀ text, v.config = some text ↔ x.Gives .config text
  mirror : ∀ text, v.mirror = some text ↔ x.Gives .mirror text

variable {x}

theorem Passes.eq_of_selecting (h : x.Passes) {m n : OptionName} (hm : m ∈ selecting)
    (hn : n ∈ selecting) (hmx : m ∈ x.options) (hnx : n ∈ x.options) : m = n := by
  have few : (selecting.filter (isNamed x.items)).length ≤ 1 := by
    have := h.exclusive
    simp only [exclude, decide_eq_false_iff_not] at this
    omega
  have hm' := List.mem_filter.2 ⟨hm, isNamed_iff.2 hmx⟩
  have hn' := List.mem_filter.2 ⟨hn, isNamed_iff.2 hnx⟩
  rcases hl : selecting.filter (isNamed x.items) with _ | ⟨a, _ | ⟨b, l⟩⟩
  · rw [hl] at hm'
    cases hm'
  · rw [hl, List.mem_singleton] at hm' hn'
    rw [hm', hn']
  · rw [hl] at few
    simp at few

theorem Passes.selects_iff (h : x.Passes) (once : x.options.Nodup) (s : Selector) :
    x.Selects s ↔ s = selectorOf x.items := by
  have member (text : String) : x.Gives .member text ↔ valueOf? x.items .member = some text :=
    (valueOf?_eq_some_iff once).symm
  have event (text : String) : x.Gives .event text ↔ valueOf? x.items .event = some text :=
    (valueOf?_eq_some_iff once).symm
  have memberGiven := x.mem_options_iff (show OptionName.member.takesValue by decide)
  have eventGiven := x.mem_options_iff (show OptionName.event.takesValue by decide)
  have notBoth {m n : OptionName} (hm : m ∈ selecting) (hn : n ∈ selecting) (hne : m ≠ n) :
      m ∈ x.options → n ∉ x.options := fun h₁ h₂ => hne (h.eq_of_selecting hm hn h₁ h₂)
  have mc := @notBoth .member .constructor (by decide) (by decide) (by decide)
  have me := @notBoth .member .event (by decide) (by decide) (by decide)
  have ce := @notBoth .constructor .event (by decide) (by decide) (by decide)
  unfold selectorOf
  cases hv : valueOf? x.items .member with
  | some name =>
    have given : .member ∈ x.options := memberGiven.2 ⟨name, (member name).2 hv⟩
    have noEvent (text : String) : ¬ x.Gives .event text :=
      fun ht => me given (eventGiven.2 ⟨text, ht⟩)
    cases s with
    | overview => simp [Selects, given]
    | constructor => simp [Selects, mc given]
    | member other isStatic =>
      have static : isStatic = isNamed x.items .static ↔
          (isStatic = true ↔ .static ∈ x.options) := by
        rw [Bool.eq_iff_iff, isNamed_iff, options]
      simp [Selects, member, hv, static, eq_comm]
    | event text => simp [Selects, noEvent]
  | none =>
    have noMember (text : String) : ¬ x.Gives .member text := by simp [member, hv]
    have absent : .member ∉ x.options := fun hm => (memberGiven.1 hm).elim noMember
    by_cases hc : .constructor ∈ x.options
    · have noEvent (text : String) : ¬ x.Gives .event text :=
        fun ht => ce hc (eventGiven.2 ⟨text, ht⟩)
      rw [if_pos (isNamed_iff.2 hc)]
      cases s <;> simp [Selects, noMember, noEvent, hc]
    · rw [if_neg (fun h => hc (isNamed_iff.1 h))]
      cases he : valueOf? x.items .event with
      | some name =>
        have given : .event ∈ x.options := eventGiven.2 ⟨name, (event name).2 he⟩
        cases s <;> simp [Selects, noMember, event, he, hc, given, eq_comm]
      | none =>
        have noEvent (text : String) : ¬ x.Gives .event text := by simp [event, he]
        have unseen : .event ∉ x.options := fun hm => (eventGiven.1 hm).elim noEvent
        cases s <;> simp [Selects, noMember, noEvent, hc, absent, unseen]

theorem Passes.static_iff (h : x.Passes) (hs : .static ∈ x.options) :
    .member ∈ x.options ↔
      .constructor ∉ x.options ∧ .event ∉ x.options ∧ .recursive ∉ x.options := by
  constructor
  · intro hm
    have alone {n : OptionName} (hn : n ∈ selecting) (hne : .member ≠ n) : n ∉ x.options :=
      fun hg => hne (h.eq_of_selecting (by decide) hn hm hg)
    exact ⟨alone (by decide) (by decide), alone (by decide) (by decide),
      alone (by decide) (by decide)⟩
  · rintro ⟨hc, he, hr⟩
    have wanted := h.member
    rw [lacksMember, isNamed_iff.2 hs, Bool.true_and, Bool.not_eq_false',
      List.any_eq_true] at wanted
    obtain ⟨n, hn, named⟩ := wanted
    have given : n ∈ x.options := isNamed_iff.1 named
    simp only [selecting, List.mem_cons, List.not_mem_nil, or_false] at hn
    rcases hn with rfl | rfl | rfl | rfl
    · exact given
    · exact absurd given hc
    · exact absurd given he
    · exact absurd given hr

/-- **What is accepted asks for what its options say.** -/
theorem Passes.means (h : x.Passes) (once : x.options.Nodup) {interface : String}
    (hw : words x.items = [interface]) :
    x.Means (generateInvocation interface x.items) (requestOf interface x.items)
      (isNamed x.items .recursive) (valueOf? x.items .output) (valueOf? x.items .templates) where
  task := rfl
  interface := hw
  selector := h.selects_iff once
  exclusive _ hm _ hn := h.eq_of_selecting hm hn
  static := h.static_iff
  group _ := valueOf?_eq_some_iff once
  experimental := isNamed_iff
  recursive := isNamed_iff
  output _ := valueOf?_eq_some_iff once
  templates _ := valueOf?_eq_some_iff once
  config _ := valueOf?_eq_some_iff once
  mirror _ := valueOf?_eq_some_iff once

/-! ## Any order -/

variable {y : Line}

/-- **Groups in another order are read as the same.** -/
theorem parse_of_perm (once : x.options.Nodup) (same : y.groups.Perm x.groups) {v : Invocation}
    (h : Invocation.parse x.arguments = .ok v) : Invocation.parse y.arguments = .ok v := by
  have items : y.items.Perm x.items := same.filterMap _
  have once' : y.options.Nodup := (items.filterMap _).nodup_iff.2 once
  have say := sayTheSame_of_perm items once'
  obtain ⟨passes, interface, hw, rfl⟩ := (x.parse_eq_ok_iff once).1 h
  have words : (words y.items).Perm [interface] := hw ▸ items.filterMap _
  refine (y.parse_eq_ok_iff once').2 ⟨⟨fun g hg => passes.valid g (same.mem_iff.1 hg),
    say.exclude.trans passes.exclusive, say.lacksMember.trans passes.member⟩, interface,
    List.perm_singleton.1 words, (generateInvocation_perm items once' interface).symm⟩

/-- **Each command line that is accepted for `generate` is made of groups**, if there is no
separator. -/
theorem exists_of_parse {as : List String} (hs : "--" ∉ as) {v : Invocation}
    (h : Invocation.parse as = .ok v) {r : Request} {recursive : Bool}
    {output templates : Option String}
    (ht : v.task = .generate r recursive output templates) : ∃ x : Line, x.arguments = as := by
  obtain ⟨c, behind, before, items, hr, hb, hread, -, -⟩ := CommandLine.parse_eq_ok_iff.1 h
  obtain ⟨passes, -, -, task⟩ := readTask_eq_ok_iff.1 hread
  rw [ht] at task
  obtain rfl := eq_generate_of_taskOf task
  obtain ⟨front, hf, rfl⟩ := exists_front hs hr (check_eq_ok_iff.1 hb).1
  have outside : "--" ∉ behind := fun hm =>
    hs (List.mem_append_right _ (List.mem_cons_of_mem _ hm))
  obtain ⟨gs, rfl⟩ := exists_groups_of_passes outside passes
  refine ⟨⟨front, gs, hf, fun g hg hm => hs ?_⟩, rfl⟩
  rcases List.mem_append.1 hg with hg | hg
  · exact List.mem_append_left _ (List.mem_flatMap.2 ⟨g, hg, hm⟩)
  · exact absurd (List.mem_flatMap.2 ⟨g, hg, hm⟩) outside

end Line

/-- **The order of a command line of `generate` does not matter.**  Each command line without
a separator that is accepted for `generate` is made of groups; and of the groups of a command
line that gives no option twice

* each order, with global options on both sides of the command, is accepted or not like the
  given one, and is read as the same;
* what is accepted asks for what its options say, one by one.  The options select one page
  only, and no two of them that say which pages are wanted are given.  If the member is said
  to be static, it is given just if none of the others is. -/
theorem generate_in_any_order (as : List String) (hs : "--" ∉ as) :
    (∀ v, Invocation.parse as = .ok v →
      (∃ r recursive output templates, v.task = .generate r recursive output templates) →
      ∃ x : Line, x.arguments = as) ∧
    ∀ x : Line, x.arguments = as → x.options.Nodup →
      (∀ y : Line, y.groups.Perm x.groups →
        (Invocation.parse y.arguments).toOption = (Invocation.parse as).toOption) ∧
      ∀ v, Invocation.parse as = .ok v →
        ∃ r recursive output templates, x.Means v r recursive output templates := by
  constructor
  · rintro v h ⟨r, recursive, output, templates, ht⟩
    exact Line.exists_of_parse hs h ht
  · rintro x rfl once
    constructor
    · intro y same
      have once' : y.options.Nodup :=
        ((same.filterMap Group.item?).filterMap Item.name?).nodup_iff.2 once
      cases hx : Invocation.parse x.arguments with
      | ok v => rw [Line.parse_of_perm once same hx]
      | error u =>
        cases hy : Invocation.parse y.arguments with
        | ok v =>
          rw [Line.parse_of_perm once' same.symm hy] at hx
          cases hx
        | error u' => rfl
    · intro v h
      obtain ⟨passes, interface, hw, rfl⟩ := (x.parse_eq_ok_iff once).1 h
      exact ⟨_, _, _, _, passes.means once hw⟩

/-- The page of a static member, with the copy of the documents at the end. -/
def memberLine : Line where
  front := []
  behind := [⟨"Node", none, by decide +kernel⟩, ⟨"--static", none, by decide +kernel⟩,
    ⟨"--member=m", none, by decide +kernel⟩, ⟨"-opages", none, by decide +kernel⟩,
    ⟨"--mirror", some "copy", by decide +kernel⟩]
  fits := by simp
  unseparated := by decide

def turnedMemberLine : Line where
  front := [⟨"--mirror", some "copy", by decide +kernel⟩]
  behind := [⟨"-opages", none, by decide +kernel⟩, ⟨"--member=m", none, by decide +kernel⟩,
    ⟨"Node", none, by decide +kernel⟩, ⟨"--static", none, by decide +kernel⟩]
  fits := by
    intro g hg
    rw [List.mem_singleton] at hg
    subst hg
    exact ⟨.mirror, by decide, .value .mirror "copy" true, by decide +kernel, rfl⟩
  unseparated := by decide

theorem generate_in_any_order_member :
    "--" ∉ memberLine.arguments ∧ (∃ x : Line, x.arguments = memberLine.arguments) ∧
    memberLine.options.Nodup ∧ turnedMemberLine.groups.Perm memberLine.groups ∧
    turnedMemberLine.arguments =
      ["--mirror", "copy", "generate", "-opages", "--member=m", "Node", "--static"] ∧
    (Invocation.parse turnedMemberLine.arguments).toOption =
      (Invocation.parse memberLine.arguments).toOption ∧
    ∃ v r recursive output templates, Invocation.parse memberLine.arguments = .ok v ∧
      memberLine.Means v r recursive output templates ∧
      r.selector = .member "m" true ∧ output = some "pages" ∧ v.mirror = some "copy" := by
  have outside : "--" ∉ memberLine.arguments := by decide +kernel
  have once : memberLine.options.Nodup := by decide +kernel
  have same : turnedMemberLine.groups.Perm memberLine.groups := by decide +kernel
  have page : Invocation.parse memberLine.arguments = .ok ⟨none, some "copy",
      .generate ⟨"Node", .member "m" true, none, false⟩ false (some "pages") none⟩ := by
    decide +kernel
  obtain ⟨covers, order⟩ := generate_in_any_order memberLine.arguments outside
  obtain ⟨turned, means⟩ := order memberLine rfl once
  obtain ⟨r, recursive, output, templates, h⟩ := means _ page
  refine ⟨outside, covers _ page ⟨_, _, _, _, rfl⟩, once, same, by decide +kernel,
    turned turnedMemberLine same, _, r, recursive, output, templates, page, h, ?_⟩
  cases h.task
  exact ⟨rfl, rfl, rfl⟩

/-- The constructor, which is said to be static. -/
def staticLine : Line where
  front := []
  behind := [⟨"Node", none, by decide +kernel⟩, ⟨"--static", none, by decide +kernel⟩,
    ⟨"--constructor", none, by decide +kernel⟩]
  fits := by simp
  unseparated := by decide

/-- **A member that is said to be static may be missing**, beside an option that excludes it. -/
theorem static_without_member :
    staticLine.arguments = ["generate", "Node", "--static", "--constructor"] ∧
    .static ∈ staticLine.options ∧ .member ∉ staticLine.options ∧
    Invocation.parse staticLine.arguments = .ok
      ⟨none, none, .generate ⟨"Node", .constructor, none, false⟩ false none none⟩ := by
  decide +kernel

end IdlDocs.CommandLine
