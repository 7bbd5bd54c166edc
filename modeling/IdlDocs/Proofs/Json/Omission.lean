import IdlDocs.Json.Record
import Mathlib.Data.List.Nodup

/-!
# Leaving fields out

A **place** is the way from a value down to a part of it.  Fields of objects can be left out at
any selection of places, at every depth.  A record is read from what is left: a field at the
selection counts as missing, every other one is there.

* `Json.Step`, `Json.Selection`: places, and selections of them.
* `Json.without`: a value without the fields at a selection.
* `Json.record?_without`: **the record that is read from what is left.**
* `Record.required?_without`, `Record.withDefault?_without`, `Record.optional?_without`: its
  fields.
-/

namespace IdlDocs

namespace Json

/-! ## Places -/

/-- A step from a value to a part of it. -/
inductive Step
  /-- To the value of a field of an object. -/
  | field (key : String)
  /-- To an item of an array. -/
  | item (index : Nat)
deriving DecidableEq

abbrev Selection := List Step → Bool

namespace Selection

def nowhere : Selection := fun _ => false

def behind (s : Selection) (step : Step) : Selection := fun place => s (step :: place)

/-- A selection within another one. -/
def Within (s t : Selection) : Prop := ∀ place, s place = true → t place = true

def Spares (s : Selection) : Prop := ∀ step place, s (step :: place) = false

/-- What a field has, or its default value where it is selected. -/
def reset {α : Type} (s : Selection) (key : String) (default value : α) : α :=
  if s [.field key] then default else value

variable {s t : Selection}

theorem Spares.behind (h : s.Spares) (step : Step) : (s.behind step).Spares :=
  fun next place => h step (next :: place)

theorem spares_nowhere : nowhere.Spares := fun _ _ => rfl

theorem nowhere_within (t : Selection) : nowhere.Within t := fun _ h => nomatch h

theorem Within.behind (h : s.Within t) (step : Step) : (s.behind step).Within (t.behind step) :=
  fun place hplace => h (step :: place) hplace

theorem Within.eq_false (h : s.Within t) {place : List Step} (ht : t place = false) :
    s place = false := by
  cases hs : s place with
  | false => rfl
  | true => rw [h place hs] at ht; cases ht

theorem Within.spares (h : s.Within t) (ht : t.Spares) : s.Spares :=
  fun step place => h.eq_false (ht step place)

end Selection

/-! ## What is left -/

mutual

/-- A value without the fields at a selection. -/
def without (s : Selection) : Json → Json
  | array items => .array (itemsWithout s 0 items)
  | object fields => .object (fieldsWithout s fields)
  | null => .null
  | bool b => .bool b
  | number literal => .number literal
  | string text => .string text
  | illFormed => .illFormed

def itemsWithout (s : Selection) (index : Nat) : List Json → List Json
  | [] => []
  | j :: js => j.without (s.behind (.item index)) :: itemsWithout s (index + 1) js

def fieldsWithout (s : Selection) : List (String × Json) → List (String × Json)
  | [] => []
  | (key, j) :: fields =>
    if s [.field key] then fieldsWithout s fields
    else (key, j.without (s.behind (.field key))) :: fieldsWithout s fields

end

variable {s : Selection}

@[simp] theorem without_string (text : String) : (string text).without s = string text := by
  rw [without]

@[simp] theorem without_bool (b : Bool) : (bool b).without s = bool b := by
  rw [without]

mutual

theorem without_of_spares : ∀ (j : Json) {s : Selection}, s.Spares → j.without s = j
  | array items, _, h => by rw [without, itemsWithout_of_spares items h]
  | object fields, _, h => by rw [without, fieldsWithout_of_spares fields h]
  | null, _, _ | bool _, _, _ | number _, _, _ | string _, _, _ | illFormed, _, _ => by rw [without]

theorem itemsWithout_of_spares :
    ∀ (js : List Json) {s : Selection} {index : Nat}, s.Spares → itemsWithout s index js = js
  | [], _, _, _ => by rw [itemsWithout]
  | j :: js, _, index, h => by
    rw [itemsWithout, without_of_spares j (h.behind (.item index)), itemsWithout_of_spares js h]

theorem fieldsWithout_of_spares :
    ∀ (fields : List (String × Json)) {s : Selection}, s.Spares → fieldsWithout s fields = fields
  | [], _, _ => by rw [fieldsWithout]
  | (key, j) :: fields, _, h => by
    rw [fieldsWithout, h, without_of_spares j (h.behind (.field key)),
      fieldsWithout_of_spares fields h]
    rfl

end

theorem mapIdx_eq_self {α : Type} {value : Nat → α → α} {as : List α}
    (h : ∀ i a, value i a = a) : as.mapIdx value = as := by
  induction as generalizing value with
  | nil => rfl
  | cons a as ih => rw [List.mapIdx_cons, h 0 a, ih fun i => h (i + 1)]

/-- The items of an array that are decoded one by one, each with its own selection. -/
theorem mapM_itemsWithout {α β : Type} {toJson : α → Json} {decode : Json → Option β}
    {as : List α} {value : Nat → α → β} (index : Nat)
    (h : ∀ a ∈ as, ∀ i, decode ((toJson a).without (s.behind (.item i))) = some (value i a)) :
    (itemsWithout s index (as.map toJson)).mapM decode =
      some (as.mapIdx fun i => value (index + i)) := by
  induction as generalizing index with
  | nil => rfl
  | cons a as ih =>
    have hrest := ih (index + 1) fun b hb => h b (List.mem_cons_of_mem a hb)
    rw [List.map_cons, itemsWithout, List.mapM_cons, h a List.mem_cons_self, hrest,
      List.mapIdx_cons]
    have hshift : (fun i => value (index + 1 + i)) = fun i => value (index + (i + 1)) := by
      funext i
      rw [Nat.add_assoc, Nat.add_comm 1 i]
    rw [hshift]
    rfl

theorem list?_array_without {α β : Type} {toJson : α → Json} {decode : Json → Option β}
    {as : List α} {value : Nat → α → β}
    (h : ∀ a ∈ as, ∀ i, decode ((toJson a).without (s.behind (.item i))) = some (value i a)) :
    list? decode ((array (as.map toJson)).without s) = some (as.mapIdx value) := by
  have hitems := mapM_itemsWithout 0 h
  simp only [Nat.zero_add] at hitems
  rw [without]
  exact hitems

theorem list?_array {α : Type} {toJson : α → Json} {decode : Json → Option α}
    (h : ∀ a, decode (toJson a) = some a) (as : List α) :
    list? decode (.array (as.map toJson)) = some as := by
  have hs : ∀ a ∈ as, ∀ i : Nat,
      decode ((toJson a).without (Selection.nowhere.behind (.item i))) = some a := by
    intro a _ i
    rw [without_of_spares _ (Selection.spares_nowhere.behind (.item i)), h]
  rw [← without_of_spares (.array (as.map toJson)) Selection.spares_nowhere,
    list?_array_without hs, mapIdx_eq_self fun _ _ => rfl]

/-! ## Fields that are left -/

def fieldsLeft (s : Selection) (fields : List (String × Option Json)) : List (String × Json) :=
  fieldsWithout s (fields.filterMap fun (key, value) => value.map (key, ·))

theorem without_ofFields (fields : List (String × Option Json)) :
    (ofFields fields).without s = .object (fieldsLeft s fields) := by
  unfold ofFields fieldsLeft
  rw [without]

theorem fieldsLeft_cons_none (key : String) (fields : List (String × Option Json)) :
    fieldsLeft s ((key, none) :: fields) = fieldsLeft s fields := rfl

theorem fieldsLeft_cons_some (key : String) (j : Json) (fields : List (String × Option Json)) :
    fieldsLeft s ((key, some j) :: fields) =
      if s [.field key] then fieldsLeft s fields
      else (key, j.without (s.behind (.field key))) :: fieldsLeft s fields := by
  unfold fieldsLeft
  rw [List.filterMap_cons]
  dsimp only [Option.map_some]
  rw [fieldsWithout]

theorem keys_fieldsLeft (fields : List (String × Option Json)) :
    List.Sublist ((fieldsLeft s fields).map Prod.fst) (fields.map Prod.fst) := by
  induction fields with
  | nil => exact List.Sublist.refl []
  | cons f fields ih =>
    obtain ⟨key, value⟩ := f
    cases value with
    | none => exact ih.cons key
    | some j =>
      rw [fieldsLeft_cons_some]
      split
      · exact ih.cons key
      · exact ih.cons_cons key

theorem lookup_eq_none_of_notMem {β : Type} {fields : List (String × β)} {key : String}
    (h : key ∉ fields.map Prod.fst) : fields.lookup key = none := by
  refine List.lookup_eq_none_iff.2 fun f hf => bne_iff_ne.2 fun he => h ?_
  rw [he]
  exact List.mem_map_of_mem hf

/-- **What is left of a field.** -/
theorem lookup_fieldsLeft {fields : List (String × Option Json)}
    (hdistinct : (fields.map Prod.fst).Nodup) (key : String) :
    (fieldsLeft s fields).lookup key =
      s.reset key none ((fields.lookup key).join.map (·.without (s.behind (.field key)))) := by
  induction fields with
  | nil =>
    unfold Selection.reset
    split <;> rfl
  | cons f fields ih =>
    obtain ⟨name, value⟩ := f
    rw [List.map_cons, List.nodup_cons] at hdistinct
    obtain ⟨hname, hrest⟩ := hdistinct
    by_cases hkey : key = name
    · subst hkey
      -- No other field has the key.
      have hother : (fieldsLeft s fields).lookup key = none :=
        lookup_eq_none_of_notMem fun h => hname ((keys_fieldsLeft fields).subset h)
      rw [List.lookup_cons_self]
      cases value with
      | none =>
        rw [fieldsLeft_cons_none, hother]
        unfold Selection.reset
        split <;> rfl
      | some j =>
        rw [fieldsLeft_cons_some]
        unfold Selection.reset
        split
        · exact hother
        · exact List.lookup_cons_self
    · have hbeq : (key == name) = false := beq_eq_false_iff_ne.2 hkey
      rw [List.lookup_cons, hbeq, ← ih hrest]
      cases value with
      | none => rw [fieldsLeft_cons_none]
      | some j =>
        rw [fieldsLeft_cons_some]
        split
        · rfl
        · rw [List.lookup_cons, hbeq]

/-! ## Records -/

theorem distinctKeys_of_nodup {fields : List (String × Json)} (h : (fields.map Prod.fst).Nodup) :
    distinctKeys fields = true := by
  induction fields with
  | nil => rfl
  | cons f fields ih =>
    rw [List.map_cons, List.nodup_cons] at h
    have hother : fields.any (·.1 == f.1) = false :=
      List.any_eq_false.2 fun g hg he => h.1 (eq_of_beq he ▸ List.mem_map_of_mem hg)
    rw [distinctKeys, hother, ih h.2]
    rfl

/-- An object that has known fields only, each at most once, is a record. -/
theorem record?_object {names : List String} {fields : List (String × Json)}
    (h : List.Sublist (fields.map Prod.fst) names) (hdistinct : names.Nodup) :
    record? names (.object fields) = some ⟨fields, false⟩ := by
  have hknown : (fields.filter fun f => names.contains f.1) = fields :=
    List.filter_eq_self.2 fun f hf =>
      List.contains_iff_mem.2 (h.subset (List.mem_map_of_mem hf))
  unfold record?
  dsimp only
  rw [hknown, distinctKeys_of_nodup (hdistinct.sublist h)]
  rfl

end Json

namespace Record

open Json

def left (s : Selection) (fields : List (String × Option Json)) : Record :=
  ⟨fieldsLeft s fields, false⟩

end Record

namespace Json

variable {s : Selection}

/-- **The record that is read from what is left of an object.** -/
theorem record?_without {names : List String} {fields : List (String × Option Json)}
    (hkeys : fields.map Prod.fst = names) (hdistinct : names.Nodup) :
    record? names ((ofFields fields).without s) = some (.left s fields) := by
  rw [without_ofFields]
  exact record?_object (hkeys ▸ keys_fieldsLeft fields) hdistinct

/-- The word for the form of a value is read, and the other fields are left. -/
theorem tagged?_without {tag word : String} {fields : List (String × Option Json)}
    (hs : s [.field tag] = false) (htag : tag ∉ fields.map Prod.fst) :
    tagged? tag ((ofFields ((tag, some (.string word)) :: fields)).without s) =
      some (word, (ofFields fields).without s) := by
  have hother : ∀ f ∈ fieldsLeft s fields, (f.1 == tag) = false := by
    intro f hf
    have hkey : f.1 ∈ fields.map Prod.fst :=
      (keys_fieldsLeft fields).subset (List.mem_map_of_mem hf)
    exact beq_eq_false_iff_ne.2 fun he => htag (he ▸ hkey)
  have hnone : (fieldsLeft s fields).filter (·.1 == tag) = [] :=
    List.filter_eq_nil_iff.2 fun f hf => by rw [hother f hf]; exact Bool.false_ne_true
  have hall : (fieldsLeft s fields).filter (·.1 != tag) = fieldsLeft s fields :=
    List.filter_eq_self.2 fun f hf => by
      unfold bne
      rw [hother f hf]
      rfl
  have hleft : fieldsLeft s ((tag, some (.string word)) :: fields) =
      (tag, .string word) :: fieldsLeft s fields := by
    rw [fieldsLeft_cons_some, hs, without_string]
    rfl
  rw [without_ofFields, without_ofFields, hleft]
  unfold tagged?
  dsimp only
  rw [List.filter_cons_of_pos (by exact beq_self_eq_true tag), hnone,
    List.filter_cons_of_neg (by simp), hall]
  rfl

end Json

namespace Record

open Json

variable {s : Selection} {fields : List (String × Option Json)} {key : String} {α : Type}
  {decode : Json → Option α}

theorem get?_left (hdistinct : (fields.map Prod.fst).Nodup) (key : String) :
    (left s fields).get? key =
      s.reset key none ((fields.lookup key).join.map (·.without (s.behind (.field key)))) :=
  lookup_fieldsLeft hdistinct key

theorem required?_without (hdistinct : (fields.map Prod.fst).Nodup) {j : Json} {a : α}
    (hs : s [.field key] = false) (hj : fields.lookup key = some (some j))
    (ha : decode (j.without (s.behind (.field key))) = some a) :
    (left s fields).required? key decode = some a := by
  unfold required?
  rw [get?_left hdistinct, hj]
  unfold Selection.reset
  rw [hs]
  exact ha

theorem withDefault?_without (hdistinct : (fields.map Prod.fst).Nodup) {j : Json} (default : α)
    {a : α} (hj : fields.lookup key = some (some j))
    (ha : decode (j.without (s.behind (.field key))) = some a) :
    (left s fields).withDefault? key default decode = some (s.reset key default a) := by
  unfold withDefault?
  rw [get?_left hdistinct, hj]
  unfold Selection.reset
  cases s [.field key] with
  | true => rfl
  | false => exact ha

theorem withDefault?_absent (hdistinct : (fields.map Prod.fst).Nodup) (default : α)
    (hj : fields.lookup key = some none) :
    (left s fields).withDefault? key default decode = some default := by
  unfold withDefault?
  rw [get?_left hdistinct, hj]
  unfold Selection.reset
  cases s [.field key] <;> rfl

theorem optional?_without (hdistinct : (fields.map Prod.fst).Nodup) {toJson : α → Json}
    {value : Option α} (hvalue : fields.lookup key = some (value.map toJson))
    (ha : ∀ a, value = some a →
      Json.nullable? decode ((toJson a).without (s.behind (.field key))) = some (some a)) :
    (left s fields).optional? key decode = some (s.reset key none value) := by
  unfold optional?
  cases value with
  | none =>
    rw [withDefault?_absent hdistinct none hvalue]
    unfold Selection.reset
    rw [ite_self]
  | some a => exact withDefault?_without hdistinct none hvalue (ha a rfl)

theorem required?_string (hdistinct : (fields.map Prod.fst).Nodup) {text : String}
    (hs : s [.field key] = false) (hj : fields.lookup key = some (some (.string text))) :
    (left s fields).required? key Json.string? = some text :=
  required?_without hdistinct hs hj (by rw [without_string]; rfl)

theorem withDefault?_bool (hdistinct : (fields.map Prod.fst).Nodup) {b : Bool}
    (hj : fields.lookup key = some (some (.bool b))) :
    (left s fields).withDefault? key false Json.bool? = some (s.reset key false b) :=
  withDefault?_without hdistinct false hj (by rw [without_bool]; rfl)

theorem optional?_string (hdistinct : (fields.map Prod.fst).Nodup) {value : Option String}
    (hj : fields.lookup key = some (value.map .string)) :
    (left s fields).optional? key Json.string? = some (s.reset key none value) :=
  optional?_without hdistinct hj fun text _ => by rw [without_string]; rfl

theorem list?_without (hdistinct : (fields.map Prod.fst).Nodup) {items : List Json} {as : List α}
    (hitems : fields.lookup key = some (arrayUnlessEmpty items))
    (ha : list? decode ((Json.array items).without (s.behind (.field key))) = some as) :
    (left s fields).withDefault? key [] (list? decode) = some (s.reset key [] as) := by
  cases items with
  | nil =>
    have hnil : as = [] := by
      rw [without, itemsWithout] at ha
      exact (Option.some.inj ha).symm
    rw [withDefault?_absent hdistinct [] hitems, hnil]
    unfold Selection.reset
    rw [ite_self]
  | cons item items => exact withDefault?_without hdistinct [] hitems ha

end Record

end IdlDocs
