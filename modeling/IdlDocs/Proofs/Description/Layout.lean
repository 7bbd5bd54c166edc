import IdlDocs.Description.Layout
import IdlDocs.Proofs.Text.Lines
import Mathlib.Data.List.Forall2

/-!
# The lines of descriptions

The text of a description whose strings have no line breaks goes on in further lines only for
its list items: one for each key of a dictionary and each value of an enumeration.  How far an
item is indented tells how many steps lead to it from the outside, as each step counts but for
the one to the keys of a map.

* `Description.words`, `Description.values`: the strings in a description.
* `Description.items`: the list items, each with the steps that lead to it.
* `Lists`: a text whose further lines start as certain items do.
* `Description.lists_chars`: **the text of a description lists its items.**
* `Description.chars_add`: **deeper down the same text has more spaces behind its line breaks.**
* `layout_of_description`: both, for rendered descriptions.
* `IsNested`, `Description.isNested_chars`: the further lines are indented list items.
-/

namespace IdlDocs

open Text

namespace Description

mutual

/-- The labels, names and tags in a description. -/
def words : Description → List String
  | text label => [label]
  | reference name => [name]
  | oneOf members => wordsOf members
  | arrayOf inner => inner.words
  | keyValue key value => key.words ++ value.words
  | promiseOf inner => inner.words
  | genericOf tag inner => tag :: inner.words
  | dictionary keys => keyWords keys
  | enumValues _ => []

def wordsOf : List Description → List String
  | [] => []
  | d :: ds => d.words ++ wordsOf ds

def keyWords : List (String × Bool × Description) → List String
  | [] => []
  | (name, _, d) :: keys => name :: (d.words ++ keyWords keys)

end

mutual

/-- The values of the enumerations in a description. -/
def values : Description → List String
  | text _ | reference _ => []
  | oneOf members => valuesOf members
  | arrayOf inner => inner.values
  | keyValue key value => key.values ++ value.values
  | promiseOf inner => inner.values
  | genericOf _ inner => inner.values
  | dictionary keys => keyValues keys
  | enumValues values => values

def valuesOf : List Description → List String
  | [] => []
  | d :: ds => d.values ++ valuesOf ds

def keyValues : List (String × Bool × Description) → List String
  | [] => []
  | (_, _, d) :: keys => d.values ++ keyValues keys

end

/-! ## List items -/

/-- A step from a description to a part of it. -/
inductive Step
  /-- To a member of a choice. -/
  | member
  /-- To what an array holds. -/
  | array
  /-- To the key of a map. -/
  | mapKey
  /-- To the value of a map. -/
  | mapValue
  | promise
  /-- To what a generic type of another kind holds. -/
  | generic
  /-- To the type of a key of a dictionary. -/
  | field
deriving DecidableEq

/-- The steps that indent what they lead to: all but the one to the key of a map. -/
def Step.indents : Step → Bool
  | mapKey => false
  | member | array | mapValue | promise | generic | field => true

/-- A list item: the steps that lead to it, the last one first, and the text that is shown as
code. -/
structure Item where
  above : List Step
  code : List Char

/-- How many of the steps to an item indent it. -/
def Item.level (x : Item) : Nat := x.above.countP Step.indents

/-- How the line of an item starts in a text at a depth. -/
def Item.lead (depth : Nat) (x : Item) : List Char :=
  List.replicate (2 * (depth + x.level)) ' ' ++ ['-', ' ', '`'] ++ x.code ++ ['`']

mutual

/-- The list items in a description that steps lead to: the keys of dictionaries and the quoted
values of enumerations, in their order, and what a key holds behind the key. -/
def items (above : List Step) : Description → List Item
  | text _ | reference _ => []
  | oneOf members => itemsOf (.member :: above) members
  | arrayOf inner => inner.items (.array :: above)
  | keyValue key value => key.items (.mapKey :: above) ++ value.items (.mapValue :: above)
  | promiseOf inner => inner.items (.promise :: above)
  | genericOf _ inner => inner.items (.generic :: above)
  | dictionary keys => keyItems above keys
  | enumValues values => values.map fun v => ⟨above, '"' :: v.toList ++ ['"']⟩

def itemsOf (above : List Step) : List Description → List Item
  | [] => []
  | d :: ds => d.items above ++ itemsOf above ds

def keyItems (above : List Step) : List (String × Bool × Description) → List Item
  | [] => []
  | (name, _, d) :: keys =>
    ⟨above, name.toList⟩ :: (d.items (.field :: above) ++ keyItems above keys)

end

end Description

/-! ## Texts that list items -/

def Lists (leads : List (List Char)) (s : List Char) : Prop :=
  ∃ p ps, parts '\n' s = p :: ps ∧ List.Forall₂ (· <+: ·) leads ps

theorem forall₂_prefix_concat {leads init : List (List Char)} {last : List Char}
    (h : List.Forall₂ (· <+: ·) leads (init ++ [last])) (t : List Char) :
    List.Forall₂ (· <+: ·) leads (init ++ [last ++ t]) := by
  induction init generalizing leads with
  | nil =>
    cases h with
    | cons hlast hnil =>
      cases hnil
      exact .cons (hlast.trans (List.prefix_append last t)) .nil
  | cons line init ih =>
    cases h with
    | cons hline hrest => exact .cons hline (ih hrest)

namespace Lists

variable {as bs : List (List Char)} {s t : List Char}

theorem unbroken (h : '\n' ∉ s) : Lists [] s := ⟨s, [], parts_of_notMem h, .nil⟩

theorem append (hs : Lists as s) (ht : Lists bs t) : Lists (as ++ bs) (s ++ t) := by
  obtain ⟨p, ps, hp, hps⟩ := hs
  obtain ⟨q, qs, hq, hqs⟩ := ht
  rcases List.eq_nil_or_concat ps with rfl | ⟨init, last, rfl⟩
  · cases hps
    have hone : parts '\n' s = [] ++ [p] := hp
    exact ⟨p ++ q, qs, parts_append_parts hone hq, hqs⟩
  · rw [List.concat_eq_append] at hp hps
    have hmore : parts '\n' s = (p :: init) ++ [last] := hp
    refine ⟨p, init ++ [last ++ q] ++ qs, ?_, List.rel_append (forall₂_prefix_concat hps q) hqs⟩
    rw [parts_append_parts hmore hq]
    simp

theorem labelled (hs : '\n' ∉ s) (ht : Lists bs t) : Lists bs (s ++ t) := (unbroken hs).append ht

theorem line (h : '\n' ∉ s) : Lists [s] ('\n' :: s) := by
  refine ⟨[], [s], ?_, .cons (List.prefix_refl s) .nil⟩
  rw [parts, if_pos rfl, parts_of_notMem h]

end Lists

theorem isUnbroken_macroCall {name : String} {args : List String} (hname : IsUnbroken name)
    (hargs : ∀ arg ∈ args, IsUnbroken arg) : IsUnbroken (macroCall name args) := by
  have hquoted : ∀ q ∈ args.map fun arg => "\"" ++ arg ++ "\"", IsUnbroken q := by
    intro q hq
    obtain ⟨arg, harg, rfl⟩ := List.mem_map.1 hq
    exact (IsUnbroken.append (by decide +kernel) (hargs arg harg)).append (by decide +kernel)
  have hlist : IsUnbroken (", ".intercalate (args.map fun arg => "\"" ++ arg ++ "\"")) :=
    .intercalate (by decide +kernel) hquoted
  unfold macroCall
  dsimp only
  refine IsUnbroken.append (.append (.append (by decide +kernel) hname) ?_) (by decide +kernel)
  split
  · decide +kernel
  · exact (IsUnbroken.append (by decide +kernel) hlist).append (by decide +kernel)

theorem isUnbroken_pageReference {target : String} (h : IsUnbroken target) :
    IsUnbroken (pageReference target) :=
  isUnbroken_macroCall (by decide +kernel) (List.forall_mem_singleton.2 h)

namespace Description

/-! ## The text of each form -/

section Forms

variable (depth : Nat) (inner : Description)

theorem chars_oneOf (members : List Description) : (oneOf members).chars depth =
    "one of ".toList ++ [',', ' '].intercalate (listChars (depth + 1) members) := rfl

theorem chars_arrayOf :
    (arrayOf inner).chars depth = "an array of ".toList ++ inner.chars (depth + 1) := rfl

theorem chars_keyValue (key value : Description) : (keyValue key value).chars depth =
    "a key-value pair ".toList ++ key.chars depth ++ ',' :: value.chars (depth + 1) := rfl

theorem chars_promiseOf :
    (promiseOf inner).chars depth = "a promise of ".toList ++ inner.chars (depth + 1) := rfl

theorem chars_genericOf (tag : String) : (genericOf tag inner).chars depth =
    tag.toList ++ " of type ".toList ++ inner.chars (depth + 1) := rfl

theorem chars_dictionary (keys : List (String × Bool × Description)) :
    (dictionary keys).chars depth =
      "an object with the following keys:".toList ++ keyChars depth keys := rfl

theorem chars_enumValues (values : List String) : (enumValues values).chars depth =
    "one of the following string values:".toList ++ values.flatMap (valueItem depth) := rfl

end Forms

/-! ## The items of a description -/

variable {above : List Step}

def leads (depth : Nat) (xs : List Item) : List (List Char) := xs.map (Item.lead depth)

/-- The depth of an item is that of the text and the number of steps that indent it. -/
theorem item_eq (depth : Nat) (above : List Step) (code : List Char) :
    item (depth + above.countP Step.indents) code = '\n' :: Item.lead depth ⟨above, code⟩ := rfl

theorem lists_item (depth : Nat) {code : List Char} (h : '\n' ∉ code) :
    Lists (leads depth [⟨above, code⟩]) (item (depth + above.countP Step.indents) code) := by
  rw [item_eq]
  refine .line ?_
  simp [Item.lead, h, List.mem_replicate]

theorem depth_cons (depth : Nat) {step : Step} (h : step.indents = true) :
    depth + (step :: above).countP Step.indents = depth + above.countP Step.indents + 1 := by
  rw [List.countP_cons_of_pos h]
  rfl

theorem lists_values (depth : Nat) : ∀ vs : List String, (∀ v ∈ vs, IsUnbroken v) →
    Lists (leads depth (vs.map fun v => ⟨above, '"' :: v.toList ++ ['"']⟩))
      (vs.flatMap (valueItem (depth + above.countP Step.indents)))
  | [], _ => .unbroken List.not_mem_nil
  | v :: vs, h => by
    rw [List.forall_mem_cons] at h
    have hvalue : '\n' ∉ '"' :: v.toList ++ ['"'] := by simpa [IsUnbroken] using h.1
    rw [List.flatMap_cons]
    exact (lists_item depth hvalue).append (lists_values depth vs h.2)

mutual

/-- **The text of a description lists its items**, where its strings are unbroken.  The steps that
lead to the description have indented it already. -/
theorem lists_chars (depth : Nat) (above : List Step) : ∀ d : Description,
    (∀ w ∈ d.words, IsUnbroken w) → (∀ v ∈ d.values, IsUnbroken v) →
    Lists (leads depth (d.items above)) (d.chars (depth + above.countP Step.indents))
  | text label, hw, _ => .unbroken (hw label List.mem_cons_self)
  | reference name, hw, _ => .unbroken (isUnbroken_pageReference (hw name List.mem_cons_self))
  | oneOf members, hw, hv => by
    have hmembers := lists_listChars depth (.member :: above) members hw hv
    rw [depth_cons depth rfl] at hmembers
    exact .labelled (by decide +kernel) hmembers
  | arrayOf inner, hw, hv => by
    have hinner := inner.lists_chars depth (.array :: above) hw hv
    rw [depth_cons depth rfl] at hinner
    exact .labelled (by decide +kernel) hinner
  | keyValue key value, hw, hv => by
    have hkey := key.lists_chars depth (.mapKey :: above)
      (fun w h => hw w (List.mem_append_left _ h)) fun v h => hv v (List.mem_append_left _ h)
    have hvalue := value.lists_chars depth (.mapValue :: above)
      (fun w h => hw w (List.mem_append_right _ h)) fun v h => hv v (List.mem_append_right _ h)
    rw [depth_cons depth rfl] at hvalue
    have hlead : '\n' ∉ "a key-value pair ".toList := by decide +kernel
    have hcomma : '\n' ∉ [','] := by decide
    rw [items, leads, List.map_append]
    exact (Lists.labelled hlead hkey).append (.labelled hcomma hvalue)
  | promiseOf inner, hw, hv => by
    have hinner := inner.lists_chars depth (.promise :: above) hw hv
    rw [depth_cons depth rfl] at hinner
    exact .labelled (by decide +kernel) hinner
  | genericOf tag inner, hw, hv => by
    have hinner := inner.lists_chars depth (.generic :: above)
      (fun w h => hw w (List.mem_cons_of_mem tag h)) hv
    rw [depth_cons depth rfl] at hinner
    have htag : '\n' ∉ tag.toList ++ " of type ".toList := by
      rw [List.mem_append, not_or]
      exact ⟨hw tag List.mem_cons_self, by decide +kernel⟩
    exact .labelled htag hinner
  | dictionary keys, hw, hv =>
    .labelled (by decide +kernel) (lists_keyChars depth above keys hw hv)
  | enumValues vs, _, hv => .labelled (by decide +kernel) (lists_values depth vs hv)

theorem lists_listChars (depth : Nat) (above : List Step) : ∀ ds : List Description,
    (∀ w ∈ wordsOf ds, IsUnbroken w) → (∀ v ∈ valuesOf ds, IsUnbroken v) →
    Lists (leads depth (itemsOf above ds))
      ([',', ' '].intercalate (listChars (depth + above.countP Step.indents) ds))
  | [], _, _ => .unbroken List.not_mem_nil
  | d :: ds, hw, hv => by
    have hd := d.lists_chars depth above (fun w h => hw w (List.mem_append_left _ h))
      fun v h => hv v (List.mem_append_left _ h)
    have hds := lists_listChars depth above ds (fun w h => hw w (List.mem_append_right _ h))
      fun v h => hv v (List.mem_append_right _ h)
    have hcomma : '\n' ∉ [',', ' '] := by decide
    rw [itemsOf, leads, List.map_append, listChars]
    cases ds with
    | nil =>
      rw [listChars, List.intercalate_singleton, itemsOf, List.map_nil, List.append_nil]
      exact hd
    | cons e es =>
      rw [listChars, List.intercalate_cons_cons, List.append_assoc]
      exact hd.append (.labelled hcomma hds)

theorem lists_keyChars (depth : Nat) (above : List Step) :
    ∀ keys : List (String × Bool × Description),
    (∀ w ∈ keyWords keys, IsUnbroken w) → (∀ v ∈ keyValues keys, IsUnbroken v) →
    Lists (leads depth (keyItems above keys)) (keyChars (depth + above.countP Step.indents) keys)
  | [], _, _ => .unbroken List.not_mem_nil
  | (name, mayMiss, d) :: keys, hw, hv => by
    have hname : Lists (leads depth [⟨above, name.toList⟩])
        (item (depth + above.countP Step.indents) name.toList) :=
      lists_item depth (hw name List.mem_cons_self)
    have hd := d.lists_chars depth (.field :: above)
      (fun w h => hw w (List.mem_cons_of_mem name (List.mem_append_left _ h)))
      fun v h => hv v (List.mem_append_left _ h)
    have hkeys := lists_keyChars depth above keys
      (fun w h => hw w (List.mem_cons_of_mem name (List.mem_append_right _ h)))
      fun v h => hv v (List.mem_append_right _ h)
    rw [depth_cons depth rfl] at hd
    have hmark : '\n' ∉ (if mayMiss then " (optional)".toList else []) ++ [':', ' '] := by
      cases mayMiss <;> decide +kernel
    have hall := hname.append ((Lists.labelled hmark hd).append hkeys)
    simp only [leads, List.map_cons, List.map_nil, List.singleton_append, List.append_assoc] at hall
    simp only [keyItems, keyChars, leads, List.map_cons, List.map_append, List.append_assoc]
    exact hall

end

end Description

/-! ## Spaces behind line breaks -/

/-- A text with spaces put behind each line break. -/
def indentLines (n : Nat) (s : List Char) : List Char :=
  s.flatMap fun c => if c = '\n' then '\n' :: List.replicate n ' ' else [c]

section Indent

variable {n : Nat} {s t : List Char}

theorem indentLines_append (n : Nat) (s t : List Char) :
    indentLines n (s ++ t) = indentLines n s ++ indentLines n t := List.flatMap_append

theorem indentLines_of_notMem (h : '\n' ∉ s) : indentLines n s = s := by
  induction s with
  | nil => rfl
  | cons c s ih =>
    rw [List.mem_cons, not_or] at h
    have hs : indentLines n s = s := ih h.2
    unfold indentLines at hs ⊢
    rw [List.flatMap_cons, if_neg (Ne.symm h.1), hs]
    rfl

/-- A text in one line in front has no line break to put spaces behind. -/
theorem indentLines_labelled (h : '\n' ∉ s) : indentLines n (s ++ t) = s ++ indentLines n t := by
  rw [indentLines_append, indentLines_of_notMem h]

theorem indentLines_line (h : '\n' ∉ s) :
    indentLines n ('\n' :: s) = '\n' :: (List.replicate n ' ' ++ s) := by
  have hs : indentLines n s = s := indentLines_of_notMem h
  unfold indentLines at hs ⊢
  rw [List.flatMap_cons, if_pos rfl, hs]
  rfl

theorem indentLines_intercalate (h : '\n' ∉ t) (ss : List (List Char)) :
    indentLines n (t.intercalate ss) = t.intercalate (ss.map (indentLines n)) := by
  induction ss with
  | nil => rfl
  | cons s ss ih =>
    cases ss with
    | nil => simp
    | cons u ss =>
      rw [List.map_cons] at ih
      rw [List.map_cons, List.map_cons, List.intercalate_cons_cons, List.intercalate_cons_cons,
        List.append_assoc, indentLines_append, indentLines_labelled h, ih, List.append_assoc]

end Indent

namespace Description

variable {more : Nat}

theorem item_add (depth : Nat) {code : List Char} (h : '\n' ∉ code) :
    item (depth + more) code = indentLines (2 * more) (item depth code) := by
  have hline : '\n' ∉ indent depth ++ ['-', ' ', '`'] ++ code ++ ['`'] := by
    simp [indent, h, List.mem_replicate]
  have hindent : indent (depth + more) = List.replicate (2 * more) ' ' ++ indent depth := by
    unfold indent
    rw [List.replicate_append_replicate]
    congr 1
    omega
  unfold item
  rw [hindent]
  simp only [List.cons_append]
  rw [indentLines_line hline]
  simp only [List.append_assoc]

theorem valueItems_add (depth : Nat) : ∀ vs : List String, (∀ v ∈ vs, IsUnbroken v) →
    vs.flatMap (valueItem (depth + more)) =
      indentLines (2 * more) (vs.flatMap (valueItem depth))
  | [], _ => rfl
  | v :: vs, h => by
    rw [List.forall_mem_cons] at h
    have hvalue : '\n' ∉ '"' :: v.toList ++ ['"'] := by simpa [IsUnbroken] using h.1
    rw [List.flatMap_cons, List.flatMap_cons, indentLines_append, valueItems_add depth vs h.2]
    exact congrArg (· ++ _) (item_add depth hvalue)

mutual

/-- **Deeper down the text of a description has more spaces behind its line breaks**, and is the
same otherwise. -/
theorem chars_add (depth more : Nat) : ∀ d : Description, (∀ w ∈ d.words, IsUnbroken w) →
    (∀ v ∈ d.values, IsUnbroken v) →
    d.chars (depth + more) = indentLines (2 * more) (d.chars depth)
  | text label, hw, _ => (indentLines_of_notMem (hw label List.mem_cons_self)).symm
  | reference name, hw, _ =>
    (indentLines_of_notMem (isUnbroken_pageReference (hw name List.mem_cons_self))).symm
  | oneOf members, hw, hv => by
    have hlead : '\n' ∉ "one of ".toList := by decide +kernel
    rw [chars_oneOf, chars_oneOf, indentLines_labelled hlead, indentLines_intercalate (by decide),
      ← listChars_add (depth + 1) more members hw hv, Nat.add_right_comm]
  | arrayOf inner, hw, hv => by
    have hlead : '\n' ∉ "an array of ".toList := by decide +kernel
    rw [chars_arrayOf, chars_arrayOf, indentLines_labelled hlead,
      ← inner.chars_add (depth + 1) more hw hv, Nat.add_right_comm]
  | keyValue key value, hw, hv => by
    have hlead : '\n' ∉ "a key-value pair ".toList := by decide +kernel
    have hcomma : '\n' ∉ [','] := by decide
    have hkey := key.chars_add depth more (fun w h => hw w (List.mem_append_left _ h))
      fun v h => hv v (List.mem_append_left _ h)
    have hvalue := value.chars_add (depth + 1) more (fun w h => hw w (List.mem_append_right _ h))
      fun v h => hv v (List.mem_append_right _ h)
    rw [chars_keyValue, chars_keyValue, List.append_assoc, List.append_assoc,
      indentLines_labelled hlead, indentLines_append, ← hkey]
    change _ = _ ++ (_ ++ indentLines _ ([','] ++ value.chars (depth + 1)))
    rw [indentLines_labelled hcomma, ← hvalue, Nat.add_right_comm]
    rfl
  | promiseOf inner, hw, hv => by
    have hlead : '\n' ∉ "a promise of ".toList := by decide +kernel
    rw [chars_promiseOf, chars_promiseOf, indentLines_labelled hlead,
      ← inner.chars_add (depth + 1) more hw hv, Nat.add_right_comm]
  | genericOf tag inner, hw, hv => by
    have htag : '\n' ∉ tag.toList ++ " of type ".toList := by
      rw [List.mem_append, not_or]
      exact ⟨hw tag List.mem_cons_self, by decide +kernel⟩
    have hinner := inner.chars_add (depth + 1) more
      (fun w h => hw w (List.mem_cons_of_mem tag h)) hv
    rw [chars_genericOf, chars_genericOf, indentLines_labelled htag, ← hinner, Nat.add_right_comm]
  | dictionary keys, hw, hv => by
    have hlead : '\n' ∉ "an object with the following keys:".toList := by decide +kernel
    rw [chars_dictionary, chars_dictionary, indentLines_labelled hlead,
      keyChars_add depth more keys hw hv]
  | enumValues vs, _, hv => by
    have hlead : '\n' ∉ "one of the following string values:".toList := by decide +kernel
    rw [chars_enumValues, chars_enumValues, indentLines_labelled hlead, valueItems_add depth vs hv]

theorem listChars_add (depth more : Nat) : ∀ ds : List Description,
    (∀ w ∈ wordsOf ds, IsUnbroken w) → (∀ v ∈ valuesOf ds, IsUnbroken v) →
    listChars (depth + more) ds = (listChars depth ds).map (indentLines (2 * more))
  | [], _, _ => by rw [listChars, listChars, List.map_nil]
  | d :: ds, hw, hv => by
    have hd := d.chars_add depth more (fun w h => hw w (List.mem_append_left _ h))
      fun v h => hv v (List.mem_append_left _ h)
    have hds := listChars_add depth more ds (fun w h => hw w (List.mem_append_right _ h))
      fun v h => hv v (List.mem_append_right _ h)
    rw [listChars, listChars, List.map_cons, hd, hds]

/-- The list items of the keys of a dictionary deeper down. -/
theorem keyChars_add (depth more : Nat) : ∀ keys : List (String × Bool × Description),
    (∀ w ∈ keyWords keys, IsUnbroken w) → (∀ v ∈ keyValues keys, IsUnbroken v) →
    keyChars (depth + more) keys = indentLines (2 * more) (keyChars depth keys)
  | [], _, _ => by rw [keyChars, keyChars]; rfl
  | (name, mayMiss, d) :: keys, hw, hv => by
    have hname : '\n' ∉ name.toList := hw name List.mem_cons_self
    have hmark : '\n' ∉ (if mayMiss then " (optional)".toList else []) := by
      cases mayMiss <;> decide +kernel
    have hcolon : '\n' ∉ [':', ' '] := by decide
    have hd := d.chars_add (depth + 1) more
      (fun w h => hw w (List.mem_cons_of_mem name (List.mem_append_left _ h)))
      fun v h => hv v (List.mem_append_left _ h)
    have hkeys := keyChars_add depth more keys
      (fun w h => hw w (List.mem_cons_of_mem name (List.mem_append_right _ h)))
      fun v h => hv v (List.mem_append_right _ h)
    rw [keyChars, keyChars, item_add depth hname, hkeys, Nat.add_right_comm, hd,
      indentLines_append, indentLines_append, indentLines_append, indentLines_append,
      indentLines_of_notMem hmark, indentLines_of_notMem hcolon]

end

end Description

/-- **The layout of descriptions.**  Of a description whose strings have no line breaks, rendered
deeper down, the text has two more spaces for each step down behind each line break.  Each line
after the first one is that of a list item, in their order: it starts with two spaces for each
step down and each step to the item that indents it, and with the key or the quoted value. -/
theorem layout_of_description (d : Description) (hw : ∀ w ∈ d.words, IsUnbroken w)
    (hv : ∀ v ∈ d.values, IsUnbroken v) (depth : Nat) :
    (∀ more, (d.render (depth + more)).toList =
        indentLines (2 * more) (d.render depth).toList) ∧
      ∃ first rest, parts '\n' (d.render depth).toList = first :: rest ∧
        List.Forall₂ (fun x line => List.replicate (2 * (depth + x.level)) ' ' ++
          ['-', ' ', '`'] ++ x.code ++ ['`'] <+: line) (d.items []) rest := by
  have htext (n : Nat) : (d.render n).toList = d.chars n := String.toList_ofList
  refine ⟨fun more => ?_, ?_⟩
  · rw [htext, htext]
    exact d.chars_add depth more hw hv
  · obtain ⟨first, rest, hparts, hrest⟩ := d.lists_chars depth [] hw hv
    rw [htext]
    exact ⟨first, rest, hparts, List.forall₂_map_left_iff.1 hrest⟩

/-- A map from an enumeration to arrays of a dictionary that holds another choice. -/
def layeredDescription : Description :=
  .oneOf [.keyValue (.enumValues ["on", "off"])
    (.arrayOf (.dictionary
      [("a", true, .promiseOf (.enumValues ["x"])), ("b", false, .text "any")])),
    .reference "Node"]

/-- The values of the key stay at the depth of the map, and the others are deeper down. -/
theorem layout_of_description_layers :
    (∀ w ∈ layeredDescription.words, IsUnbroken w) ∧
      (∀ v ∈ layeredDescription.values, IsUnbroken v) ∧
      (layeredDescription.render (2 + 1)).toList =
        indentLines (2 * 1) (layeredDescription.render 2).toList ∧
      (layeredDescription.items []).map (fun x => (x.level, String.ofList x.code)) =
        [(1, "\"on\""), (1, "\"off\""), (3, "a"), (5, "\"x\""), (3, "b")] ∧
      ∃ first rest, parts '\n' (layeredDescription.render 2).toList = first :: rest ∧
        List.Forall₂ (fun x line => List.replicate (2 * (2 + x.level)) ' ' ++
          ['-', ' ', '`'] ++ x.code ++ ['`'] <+: line) (layeredDescription.items []) rest := by
  have hw : ∀ w ∈ layeredDescription.words, IsUnbroken w := by decide +kernel
  have hv : ∀ v ∈ layeredDescription.values, IsUnbroken v := by decide +kernel
  obtain ⟨hshift, hlines⟩ := layout_of_description layeredDescription hw hv 2
  exact ⟨hw, hv, hshift 1, by decide +kernel, hlines⟩

/-! ## Nested texts -/

/-- A list item in a line of its own, indented by at least `2 * depth` spaces. -/
def IsNestedItem (depth : Nat) (line : List Char) : Prop :=
  ∃ n, 2 * depth ≤ n ∧ List.replicate n ' ' ++ ['-', ' ', '`'] <+: line

/-- A text whose further lines are indented list items. -/
def IsNested (depth : Nat) (s : List Char) : Prop :=
  ∃ p ps, parts '\n' s = p :: ps ∧ ∀ line ∈ ps, IsNestedItem depth line

/-- **The text of a description is nested at its depth**, where its strings are unbroken. -/
theorem Description.isNested_chars (depth : Nat) (d : Description)
    (hw : ∀ w ∈ d.words, IsUnbroken w) (hv : ∀ v ∈ d.values, IsUnbroken v) :
    IsNested depth (d.chars depth) := by
  obtain ⟨p, ps, hparts, hps⟩ := d.lists_chars depth [] hw hv
  obtain ⟨hlength, hget⟩ := List.forall₂_iff_get.1 (List.forall₂_map_left_iff.1 hps)
  refine ⟨p, ps, hparts, fun line hl => ?_⟩
  obtain ⟨i, hi, rfl⟩ := List.mem_iff_getElem.1 hl
  have hlead := hget i (hlength ▸ hi) hi
  refine ⟨2 * (depth + ((d.items []).get ⟨i, hlength ▸ hi⟩).level), by omega, ?_⟩
  unfold Item.lead at hlead
  rw [List.append_assoc _ (Item.code _)] at hlead
  exact (List.prefix_append _ _).trans hlead

end IdlDocs
