import IdlDocs.CommandLine.Invocation

/-!
# Groups of arguments

Behind the command `generate`, an option whose value is the next argument makes a **group**
with it; each other argument is a group of its own.  Each group is read on its own, whatever
stands around it, but for a second word, which does not fit.

* `Group.item?`: the item of a group.
* `Group.read_item`, `Group.exists_item`: **what reading a group does**, behind the command and,
  for global options, before it.
* `passes_read_iff`, `items_read`: reading groups passes if there is nothing wrong about each
  of them, with as many words as there is room for, and gives their items.
* `exists_groups`: **arguments are groups**, but for an option at the end whose value is
  missing; `exists_front` before the command.
-/

namespace IdlDocs.CommandLine

/-! ## Single arguments -/

def generateArgument (a : String) : Argument := argument (.command .generate) a

theorem OptionName.eq_of_toWord_eq {m n : OptionName} (h : m.toWord = n.toWord) : m = n := by
  cases m <;> cases n <;> first | rfl | exact absurd h (by decide)

theorem Level.ofWord?_eq_some_iff {l : Level} {w : String} {n : OptionName} :
    l.ofWord? w = some n ↔ n ∈ l.options ∧ n.toWord = w := by
  constructor
  · intro h
    exact ⟨List.mem_of_find?_eq_some h, by simpa using List.find?_some h⟩
  · rintro ⟨hn, rfl⟩
    have found : (l.options.find? (·.toWord == n.toWord)).isSome := by
      rw [List.find?_isSome]
      exact ⟨n, hn, beq_self_eq_true _⟩
    obtain ⟨m, hm⟩ := Option.isSome_iff_exists.1 found
    have same : m = n := OptionName.eq_of_toWord_eq (by simpa using List.find?_some hm)
    exact same ▸ hm

theorem longArgument_eq_option_iff {l : Level} {body : List Char} {n : OptionName}
    {value : Option String} :
    longArgument l body = .option n value ↔
      l.ofWord? (splitValue body).1 = some n ∧ (splitValue body).2 = value ∧
        (n.takesValue || value.isNone) = true := by
  unfold longArgument
  rcases splitValue body with ⟨w, v⟩
  cases hm : l.ofWord? w with
  | some m =>
    simp only
    split <;> grind
  | none =>
    simp only
    split
    · simp_all
    · split <;> simp
    · simp

theorem longArgument_ne (l : Level) (body : List Char) :
    longArgument l body ≠ .separator ∧ ∀ w, longArgument l body ≠ .word w := by
  unfold longArgument
  simp only
  split <;> (try split) <;> simp

theorem shortArgument_eq_option {l : Level} {c : Char} {rest : List Char} {n : OptionName}
    {value : Option String} (h : shortArgument l c rest = .option n value) :
    n ∈ l.options ∧ n.letter? = some c := by
  unfold shortArgument at h
  split at h
  · next hm =>
    cases h
    exact ⟨List.mem_of_find?_eq_some hm, by simpa using List.find?_some hm⟩
  · cases h
  · cases h

theorem shortArgument_ne (l : Level) (c : Char) (rest : List Char) :
    shortArgument l c rest ≠ .separator ∧ ∀ w, shortArgument l c rest ≠ .word w := by
  unfold shortArgument
  split <;> simp

theorem argument_eq_word {l : Level} {a w : String} (h : argument l a = .word w) :
    w = a ∧ ∀ k : Level, argument k a = .word a := by
  unfold argument at h ⊢
  split at h
  · cases h
  · exact absurd h ((longArgument_ne _ _).2 _)
  · exact absurd h ((shortArgument_ne _ _ _).2 _)
  · cases h
    exact ⟨rfl, fun k => by simp⟩

theorem eq_of_argument_eq_separator {l : Level} {a : String} (h : argument l a = .separator) :
    a = "--" := by
  unfold argument at h
  split at h
  · next ha => exact String.toList_inj.1 ha
  · exact absurd h (longArgument_ne _ _).1
  · exact absurd h (shortArgument_ne _ _ _).1
  · cases h

theorem argument_program_eq_option_iff {a : String} {n : OptionName} {value : Option String} :
    argument .program a = .option n value ↔
      generateArgument a = .option n value ∧ n ∈ OptionName.global := by
  have options : n ∈ Level.program.options ↔
      n ∈ (Level.command .generate).options ∧ n ∈ OptionName.global := by
    cases n <;> decide
  -- no option of the program has a letter
  have letter (l : Level) (c : Char) (rest : List Char) (hn : n ∈ OptionName.global) :
      shortArgument l c rest ≠ .option n value := by
    intro h
    have hc := (shortArgument_eq_option h).2
    simp only [OptionName.global, List.mem_cons, List.not_mem_nil, or_false] at hn
    rcases hn with rfl | rfl <;> cases hc
  unfold generateArgument argument
  split
  · simp
  · simp only [longArgument_eq_option_iff, Level.ofWord?_eq_some_iff, options]
    grind
  · next c rest _ _ _ =>
    constructor
    · intro h
      exact absurd h (letter _ _ _ (shortArgument_eq_option h).1)
    · rintro ⟨h, hn⟩
      exact absurd h (letter _ _ _ hn)
  · simp

/-! ## Groups -/

/-- Tells whether an argument is an option whose value is the next argument. -/
def awaitsValue (a : String) : Bool :=
  match generateArgument a with
  | .option n none => n.takesValue
  | _ => false

/-- An argument, together with the next one if that is its value. -/
structure Group where
  first : String
  value : Option String
  fits : value.isSome = awaitsValue first
deriving DecidableEq

namespace Group

def arguments (g : Group) : List String := g.first :: g.value.toList

/-- The item of a group: a word, or an option with what it takes. -/
def item? (g : Group) : Option Item :=
  match generateArgument g.first, g.value with
  | .word w, none => some (.word w)
  | .option n none, none => some (.mark n)
  | .option n (some text), none => some (.value n text false)
  | .option n none, some a => if generateArgument a = .word a then some (.value n a true) else none
  | _, _ => none

def IsGlobal (g : Group) : Prop := ∃ n ∈ OptionName.global, ∃ i, g.item? = some i ∧ i.name? = some n

end Group

/-! ## Reading groups -/

/-- Tells whether there is nothing wrong about an item on its own: an option has what it
takes, a path is not empty, and nothing is asked for. -/
def Item.isValid : Item → Bool
  | word _ | mark _ => true
  | value n text _ => !(n.isPath && text == "")
  | bare _ | question _ => false

/-- All arguments have been read, and there is nothing wrong about any item on its own. -/
structure Reading.Passes (r : Reading) : Prop where
  done : r.ending = .done
  valid : ∀ i ∈ r.items, i.isValid

@[simp] theorem Reading.passes_cons {i : Item} {r : Reading} :
    (r.cons i).Passes ↔ i.isValid ∧ r.Passes := by
  constructor
  · intro h
    exact ⟨h.valid i (by simp [cons]), h.done, fun j hj => h.valid j (by simp [cons, hj])⟩
  · rintro ⟨hi, h⟩
    refine ⟨h.done, fun j hj => ?_⟩
    rcases List.mem_cons.1 hj with rfl | hj
    · exact hi
    · exact h.valid j hj

/-- Tells whether an item takes room: it is a word. -/
def Item.isWord : Item → Bool
  | word _ => true
  | mark _ | value _ _ _ | bare _ | question _ => false

namespace Group

variable {g : Group} {i : Item} {room : Bool}

/-- What has an item: a word, and an option as a mark, with its value in the same argument, or
with its value in the next one. -/
theorem item_cases (h : g.item? = some i) :
    (∃ w, generateArgument g.first = .word w ∧ g.value = none ∧ i = .word w) ∨
    (∃ n, generateArgument g.first = .option n none ∧ n.takesValue = false ∧ g.value = none ∧
      i = .mark n) ∨
    (∃ n text, generateArgument g.first = .option n (some text) ∧ g.value = none ∧
      i = .value n text false) ∨
    (∃ n text, generateArgument g.first = .option n none ∧ n.takesValue = true ∧
      g.value = some text ∧ generateArgument text = .word text ∧ i = .value n text true) := by
  have fits := g.fits
  unfold awaitsValue at fits
  unfold item? at h
  split at h
  · next w hg hv =>
    cases h
    exact .inl ⟨w, hg, hv, rfl⟩
  · next n hg hv =>
    cases h
    rw [hg, hv] at fits
    exact .inr (.inl ⟨n, hg, fits.symm, hv, rfl⟩)
  · next n text hg hv =>
    cases h
    exact .inr (.inr (.inl ⟨n, text, hg, hv, rfl⟩))
  · next n text hg hv =>
    split at h
    · next hw =>
      cases h
      rw [hg, hv] at fits
      exact .inr (.inr (.inr ⟨n, text, hg, fits.symm, hv, hw, rfl⟩))
    · cases h
  · cases h

/-- **A group with an item is read as this item**, at each place where its first argument is
what it is behind the command, if there is room for it. -/
theorem read_item {l : Level} (hl : argument l g.first = generateArgument g.first)
    (hi : g.item? = some i) (hw : i.isWord = true → room = true) (as : List String) :
    read l room (g.arguments ++ as) = (read l (room && !i.isWord) as).cons i := by
  obtain ⟨a, value, fits⟩ := g
  simp only at hl
  rcases item_cases hi with ⟨w, ha, rfl, rfl⟩ | ⟨n, ha, hn, rfl, rfl⟩ | ⟨n, text, ha, rfl, rfl⟩ |
    ⟨n, text, ha, hn, rfl, ht, rfl⟩
  · rw [hw rfl]
    simp [arguments, read, hl, ha, Item.isWord]
  · simp [arguments, read, hl, ha, hn, Item.isWord]
  · simp [arguments, read, hl, ha, Item.isWord]
  · rw [show arguments ⟨a, some text, fits⟩ ++ as = a :: text :: as from rfl, read]
    simp [hl, ha, hn, (argument_eq_word ht).2 l, Item.isWord]

/-- **A group has an item, and room for it, if the reading passes.** -/
theorem exists_item (hs : "--" ∉ g.arguments) {as : List String}
    (h : (read (.command .generate) room (g.arguments ++ as)).Passes) :
    ∃ i, g.item? = some i ∧ (i.isWord = true → room = true) := by
  obtain ⟨a, value, fits⟩ := g
  have ha : argument (.command .generate) a = generateArgument a := rfl
  cases hg : generateArgument a with
  | separator =>
    refine absurd ?_ hs
    simp [arguments, eq_of_argument_eq_separator hg]
  | word w =>
    obtain rfl : value = none := by simpa [awaitsValue, hg] using fits
    refine ⟨.word w, by simp [item?, hg], fun _ => ?_⟩
    cases room with
    | true => rfl
    | false => exact absurd h.done (by simp [arguments, read, ha, hg])
  | option n text =>
    cases text with
    | some text =>
      obtain rfl : value = none := by simpa [awaitsValue, hg] using fits
      exact ⟨.value n text false, by simp [item?, hg], by simp [Item.isWord]⟩
    | none =>
      cases value with
      | none => exact ⟨.mark n, by simp [item?, hg], by simp [Item.isWord]⟩
      | some b =>
        by_cases hb : generateArgument b = .word b
        · exact ⟨.value n b true, by simp [item?, hg, hb], by simp [Item.isWord]⟩
        · have hn : n.takesValue = true := by simpa [awaitsValue, hg] using fits.symm
          rw [show arguments ⟨a, some b, fits⟩ ++ as = a :: b :: as from rfl, read] at h
          simp only [ha, hg, hn, if_true] at h
          split at h
          · next w hw => exact absurd ((argument_eq_word hw).2 _) hb
          · simp [Item.isValid] at h
  | question u =>
    obtain rfl : value = none := by simpa [awaitsValue, hg] using fits
    have valid := h.valid (.question u) (by simp [arguments, read, ha, hg])
    simp [Item.isValid] at valid
  | refused u =>
    obtain rfl : value = none := by simpa [awaitsValue, hg] using fits
    exact absurd h.done (by simp [arguments, read, ha, hg])

theorem passes_iff (hs : "--" ∉ g.arguments) {as : List String} :
    (read (.command .generate) room (g.arguments ++ as)).Passes ↔
      ∃ i, g.item? = some i ∧ i.isValid ∧ (i.isWord = true → room = true) ∧
        (read (.command .generate) (room && !i.isWord) as).Passes := by
  constructor
  · intro h
    obtain ⟨i, hi, hw⟩ := exists_item hs h
    rw [read_item rfl hi hw, Reading.passes_cons] at h
    exact ⟨i, hi, h.1, hw, h.2⟩
  · rintro ⟨i, hi, valid, hw, h⟩
    rw [read_item rfl hi hw]
    exact Reading.passes_cons.2 ⟨valid, h⟩

end Group

def argumentsOf (gs : List Group) : List String := gs.flatMap Group.arguments

@[simp] theorem argumentsOf_cons (g : Group) (gs : List Group) :
    argumentsOf (g :: gs) = g.arguments ++ argumentsOf gs := rfl

def itemsOf (gs : List Group) : List Item := gs.filterMap Group.item?

theorem mem_itemsOf {gs : List Group} {i : Item} :
    i ∈ itemsOf gs ↔ ∃ g ∈ gs, g.item? = some i := List.mem_filterMap

/-- The words among some items. -/
def words (items : List Item) : List String :=
  items.filterMap fun
    | .word text => some text
    | _ => none

theorem length_words_cons (i : Item) (items : List Item) :
    (words (i :: items)).length = (words items).length + i.isWord.toNat := by
  cases i <;> rfl

def Group.IsValid (g : Group) : Prop := ∃ i, g.item? = some i ∧ i.isValid

theorem isValid_of_mem_itemsOf {gs : List Group} (h : ∀ g ∈ gs, g.IsValid) :
    ∀ i ∈ itemsOf gs, i.isValid := by
  intro i hi
  obtain ⟨g, hg, hgi⟩ := mem_itemsOf.1 hi
  obtain ⟨j, hj, hv⟩ := h g hg
  rw [hgi] at hj
  cases hj
  exact hv

theorem isValid_of_global {gs : List Group} (hg : ∀ g ∈ gs, g.IsGlobal)
    (h : ∀ i ∈ itemsOf gs, i.isValid) : ∀ g ∈ gs, g.IsValid := by
  intro g hm
  obtain ⟨n, -, i, hi, -⟩ := hg g hm
  exact ⟨i, hi, h i (mem_itemsOf.2 ⟨g, hm, hi⟩)⟩

/-- **Reading groups passes if there is nothing wrong about each of them, with as many words
as there is room for.** -/
theorem passes_read_iff {gs : List Group} (hs : ∀ g ∈ gs, "--" ∉ g.arguments) (room : Bool) :
    (read (.command .generate) room (argumentsOf gs)).Passes ↔
      (∀ g ∈ gs, g.IsValid) ∧ (words (itemsOf gs)).length ≤ room.toNat := by
  induction gs generalizing room with
  | nil => exact iff_of_true ⟨rfl, by simp [argumentsOf, read]⟩ (by simp [itemsOf, words])
  | cons g gs ih =>
    have ih := ih (fun g' hg' => hs g' (List.mem_cons_of_mem g hg'))
    rw [argumentsOf_cons, Group.passes_iff (hs g List.mem_cons_self), List.forall_mem_cons]
    have room_iff (i : Item) (k : Nat) : (i.isWord = true → room = true) ∧
        k ≤ (room && !i.isWord).toNat ↔ k + i.isWord.toNat ≤ room.toNat := by
      cases room <;> cases i.isWord <;> simp
    constructor
    · rintro ⟨i, hi, valid, hw, h⟩
      obtain ⟨rest, fits⟩ := (ih _).1 h
      refine ⟨⟨⟨i, hi, valid⟩, rest⟩, ?_⟩
      rw [itemsOf, List.filterMap_cons_some hi, length_words_cons]
      exact (room_iff i _).1 ⟨hw, fits⟩
    · rintro ⟨⟨⟨i, hi, valid⟩, rest⟩, fits⟩
      rw [itemsOf, List.filterMap_cons_some hi, length_words_cons] at fits
      obtain ⟨hw, fits⟩ := (room_iff i _).2 fits
      exact ⟨i, hi, valid, hw, (ih _).2 ⟨rest, fits⟩⟩

theorem items_read {gs : List Group} (hs : ∀ g ∈ gs, "--" ∉ g.arguments) {room : Bool}
    (h : (read (.command .generate) room (argumentsOf gs)).Passes) :
    (read (.command .generate) room (argumentsOf gs)).items = itemsOf gs := by
  induction gs generalizing room with
  | nil => rfl
  | cons g gs ih =>
    rw [argumentsOf_cons] at h ⊢
    obtain ⟨i, hi, -, hw, h⟩ := (Group.passes_iff (hs g List.mem_cons_self)).1 h
    have rest := ih (fun g' hg' => hs g' (List.mem_cons_of_mem g hg')) h
    rw [Group.read_item rfl hi hw, Reading.cons, rest, itemsOf, itemsOf,
      List.filterMap_cons_some hi]

/-! ## Global options before the command -/

theorem OptionName.takesValue_of_global {n : OptionName} (h : n ∈ global) : n.takesValue := by
  revert h
  cases n <;> decide

/-- **A global option is read before the command as it is behind it.** -/
theorem Group.IsGlobal.read {g : Group} (hg : g.IsGlobal) :
    ∃ i, g.item? = some i ∧ ∀ as,
      CommandLine.read .program false (g.arguments ++ as) =
        (CommandLine.read .program false as).cons i := by
  obtain ⟨n, hn, i, hi, hin⟩ := hg
  have option : i.isWord = false := by
    cases i <;> first | rfl | cases hin
  have first : argument .program g.first = generateArgument g.first := by
    rcases item_cases hi with ⟨w, -, -, rfl⟩ | ⟨m, ha, -, -, rfl⟩ | ⟨m, text, ha, -, rfl⟩ |
      ⟨m, text, ha, -, -, -, rfl⟩
    · cases hin
    all_goals
      cases hin
      rw [ha, argument_program_eq_option_iff]
      exact ⟨ha, hn⟩
  refine ⟨i, hi, fun as => ?_⟩
  rw [read_item first hi (by simp [option]), Bool.false_and]

theorem read_program {front : List Group} (hg : ∀ g ∈ front, g.IsGlobal) (behind : List String) :
    read .program false (argumentsOf front ++ "generate" :: behind) =
      ⟨itemsOf front, .command .generate behind⟩ := by
  induction front with
  | nil => rfl
  | cons g front ih =>
    obtain ⟨i, hi, hr⟩ := (hg g List.mem_cons_self).read
    have ih := ih (fun g' hg' => hg g' (List.mem_cons_of_mem g hg'))
    rw [argumentsOf_cons, List.append_assoc, hr, ih]
    simp [Reading.cons, itemsOf, hi]

/-! ## Arguments in groups -/

/-- Arguments are groups, but for an option at the end whose value is missing. -/
theorem exists_groups : ∀ as : List String,
    (∃ gs, argumentsOf gs = as) ∨ ∃ gs a, awaitsValue a = true ∧ argumentsOf gs ++ [a] = as
  | [] => .inl ⟨[], rfl⟩
  | [a] =>
    if h : awaitsValue a then .inr ⟨[], a, h, rfl⟩ else .inl ⟨[⟨a, none, by simp [h]⟩], rfl⟩
  | a :: b :: as => by
    by_cases h : awaitsValue a = true
    · rcases exists_groups as with ⟨gs, rfl⟩ | ⟨gs, c, hc, rfl⟩
      · exact .inl ⟨⟨a, some b, h.symm⟩ :: gs, rfl⟩
      · exact .inr ⟨⟨a, some b, h.symm⟩ :: gs, c, hc, rfl⟩
    · rcases exists_groups (b :: as) with ⟨gs, hgs⟩ | ⟨gs, c, hc, hgs⟩
      · exact .inl ⟨⟨a, none, by simp [h]⟩ :: gs, by rw [argumentsOf_cons, hgs]; rfl⟩
      · exact .inr ⟨⟨a, none, by simp [h]⟩ :: gs, c, hc, by
          rw [argumentsOf_cons, List.append_assoc, hgs]; rfl⟩

theorem passes_behind {gs : List Group} {as : List String} (hs : ∀ g ∈ gs, "--" ∉ g.arguments)
    {room : Bool} (h : (read (.command .generate) room (argumentsOf gs ++ as)).Passes) :
    ∃ left, (read (.command .generate) left as).Passes := by
  induction gs generalizing room with
  | nil => exact ⟨room, h⟩
  | cons g gs ih =>
    rw [argumentsOf_cons, List.append_assoc, Group.passes_iff (hs g List.mem_cons_self)] at h
    obtain ⟨i, -, -, -, h⟩ := h
    exact ih (fun g' hg' => hs g' (List.mem_cons_of_mem g hg')) h

theorem exists_groups_of_passes {as : List String} (hs : "--" ∉ as) {room : Bool}
    (h : (read (.command .generate) room as).Passes) : ∃ gs, argumentsOf gs = as := by
  rcases exists_groups as with hgs | ⟨gs, a, ha, rfl⟩
  · exact hgs
  · have outside : ∀ g ∈ gs, "--" ∉ g.arguments := fun g hg hm =>
      hs (List.mem_append_left _ (List.mem_flatMap.2 ⟨g, hg, hm⟩))
    obtain ⟨left, hp⟩ := passes_behind outside h
    unfold awaitsValue generateArgument at ha
    split at ha
    · next n hn =>
      rw [read] at hp
      simp [hn, ha] at hp
      exact absurd (hp.valid (.bare n) (by simp)) (by simp [Item.isValid])
    · cases ha

theorem Reading.cons_eq {i : Item} {r : Reading} {items : List Item} {e : Ending}
    (h : r.cons i = ⟨items, e⟩) : ∃ is, items = i :: is ∧ r = ⟨is, e⟩ := by
  cases h
  exact ⟨r.items, rfl, rfl⟩

theorem readCommand_eq {w : String} {as behind : List String} {items : List Item}
    {c : CommandName} (h : readCommand w as = ⟨items, .command c behind⟩) :
    w = c.toWord ∧ as = behind := by
  unfold readCommand at h
  split at h
  · next hc =>
    cases h
    have named := List.find?_some hc
    exact ⟨(beq_iff_eq.1 named).symm, rfl⟩
  · cases h

theorem front_cases {as behind : List String} {items : List Item} (hs : "--" ∉ as)
    (h : read .program false as = ⟨items, .command .generate behind⟩)
    (hv : ∀ i ∈ items, i.isValid) :
    as = "generate" :: behind ∨ ∃ (g : Group) (rest : List String) (is : List Item),
      g.IsGlobal ∧ as = g.arguments ++ rest ∧
      read .program false rest = ⟨is, .command .generate behind⟩ ∧ ∀ i ∈ is, i.isValid := by
  cases as with
  | nil => cases h
  | cons a as =>
    rw [read] at h
    cases ha : argument .program a with
    | separator => exact absurd (eq_of_argument_eq_separator ha ▸ List.mem_cons_self) hs
    | word w =>
      obtain ⟨rfl, -⟩ := argument_eq_word ha
      simp only [ha, Bool.false_eq_true, if_false, beq_self_eq_true, if_true] at h
      obtain ⟨rfl, rfl⟩ := readCommand_eq h
      exact .inl rfl
    | option n text =>
      obtain ⟨hg, hn⟩ := argument_program_eq_option_iff.1 ha
      have takes := OptionName.takesValue_of_global hn
      cases text with
      | some text =>
        simp only [ha] at h
        obtain ⟨is, rfl, hr⟩ := Reading.cons_eq h
        refine .inr ⟨⟨a, none, by simp [awaitsValue, hg]⟩, as, is, ?_, rfl, hr,
          fun i hi => hv i (List.mem_cons_of_mem _ hi)⟩
        exact ⟨n, hn, .value n text false, by simp [Group.item?, hg], rfl⟩
      | none =>
        simp only [ha, takes, if_true] at h
        cases as with
        | nil => cases h
        | cons b as =>
          simp only at h
          split at h
          · next w hw =>
            obtain ⟨is, rfl, hr⟩ := Reading.cons_eq h
            obtain ⟨rfl, hb⟩ := argument_eq_word hw
            refine .inr ⟨⟨a, some w, by simp [awaitsValue, hg, takes]⟩, as, is, ?_, rfl, hr,
              fun i hi => hv i (List.mem_cons_of_mem _ hi)⟩
            have hb : generateArgument w = .word w := hb _
            exact ⟨n, hn, .value n w true, by simp [Group.item?, hg, hb], rfl⟩
          · obtain ⟨is, rfl, -⟩ := Reading.cons_eq h
            exact absurd (hv (.bare n) List.mem_cons_self) (by simp [Item.isValid])
    | question u => simp [ha] at h
    | refused u => simp [ha] at h

/-- Arguments before the command, with nothing wrong about their items, are global
options. -/
theorem exists_front {as behind : List String} {items : List Item} (hs : "--" ∉ as)
    (h : read .program false as = ⟨items, .command .generate behind⟩)
    (hv : ∀ i ∈ items, i.isValid) :
    ∃ front, (∀ g ∈ front, g.IsGlobal) ∧ as = argumentsOf front ++ "generate" :: behind := by
  induction hn : as.length using Nat.strongRecOn generalizing as items with
  | _ n ih =>
    rcases front_cases hs h hv with rfl | ⟨g, rest, is, hg, rfl, hr, hi⟩
    · exact ⟨[], by simp, rfl⟩
    · have shorter : rest.length < n := by
        rw [← hn, Group.arguments, List.cons_append, List.length_cons, List.length_append]
        omega
      obtain ⟨front, hf, rfl⟩ := ih _ shorter (fun hm => hs (List.mem_append_right _ hm)) hr hi rfl
      exact ⟨g :: front, List.forall_mem_cons.2 ⟨hg, hf⟩, by simp⟩

end IdlDocs.CommandLine
