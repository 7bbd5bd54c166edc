import IdlDocs.Json.Basic

/-!
# Records

A **record** has fields with fixed names.  It is written as an object, in which
unknown fields are passed over and no known field stands twice, or as an array of
its fields in their order, of which the last ones may be missing.

* `Json.record?`: the fields of a record.
* `Json.tagged?`: the form of a value that says its form by a word, and its fields.
* `Record.required?`, `Record.withDefault?`, `Record.nullable?`: a field that must be
  there, that has a default value, that may be null.
-/

namespace IdlDocs

/-- The fields of a record that are there, and whether it is written as an array. -/
structure Record where
  fields : List (String × Json)
  positional : Bool

namespace Record

/-- The value of a field that is there. -/
def get? (r : Record) (name : String) : Option Json := r.fields.lookup name

variable {α : Type}

def required? (r : Record) (name : String) (decode : Json → Option α) : Option α :=
  (r.get? name).bind decode

def withDefault? (r : Record) (name : String) (default : α) (decode : Json → Option α) :
    Option α :=
  match r.get? name with
  | some j => decode j
  | none => some default

/-- A field that may be missing, as if it had a default value, or null. -/
def optional? (r : Record) (name : String) (decode : Json → Option α) : Option (Option α) :=
  r.withDefault? name none (Json.nullable? decode)

/-- A field that may be null.  It may be missing only where it is named. -/
def nullable? (r : Record) (name : String) (decode : Json → Option α) : Option (Option α) :=
  match r.get? name with
  | some j => Json.nullable? decode j
  | none => if r.positional then none else some none

end Record

namespace Json

def distinctKeys (fields : List (String × Json)) : Bool :=
  match fields with
  | [] => true
  | (key, _) :: rest => !(rest.any (·.1 == key)) && distinctKeys rest

def record? (names : List String) : Json → Option Record
  | object fields =>
    let known := fields.filter fun f => names.contains f.1
    if distinctKeys known then some ⟨known, false⟩ else none
  | array items =>
    if items.length ≤ names.length then some ⟨names.zip items, true⟩ else none
  | _ => none

/-- The word in the field `tag`, which tells the form of a value, and the value
without this field.  In an array the word stands first. -/
def tagged? (tag : String) : Json → Option (String × Json)
  | object fields =>
    match fields.filter (·.1 == tag) with
    | [(_, word)] => word.word?.map (·, object (fields.filter (·.1 != tag)))
    | _ => none
  | array (word :: items) => word.word?.map (·, array items)
  | _ => none

theorem sizeOf_of_lookup {fields : List (String × Json)} {name : String} {v : Json}
    (h : fields.lookup name = some v) : sizeOf v < sizeOf fields := by
  induction fields with
  | nil => simp at h
  | cons f fs ih =>
    obtain ⟨key, w⟩ := f
    rw [List.lookup_cons] at h
    split at h
    · cases h; simp only [List.cons.sizeOf_spec, Prod.mk.sizeOf_spec]; omega
    · have := ih h; simp only [List.cons.sizeOf_spec]; omega

theorem sizeOf_filter (fields : List (String × Json)) (p : String × Json → Bool) :
    sizeOf (fields.filter p) ≤ sizeOf fields := by
  induction fields with
  | nil => simp
  | cons f fs ih =>
    rw [List.filter_cons]
    split
    · simp only [List.cons.sizeOf_spec]; omega
    · simp only [List.cons.sizeOf_spec]; omega

theorem sizeOf_zip {names : List String} {items : List Json} {name : String} {v : Json}
    (h : (names.zip items).lookup name = some v) : sizeOf v < sizeOf items := by
  induction names generalizing items with
  | nil => simp at h
  | cons n ns ih =>
    cases items with
    | nil => simp at h
    | cons j js =>
      rw [List.zip_cons_cons, List.lookup_cons] at h
      split at h
      · cases h; simp only [List.cons.sizeOf_spec]; omega
      · have := ih h; simp only [List.cons.sizeOf_spec]; omega

theorem sizeOf_of_mem {items : List Json} {v : Json} (h : v ∈ items) :
    sizeOf v < sizeOf (array items) := by
  have := List.sizeOf_lt_of_mem h
  simp only [array.sizeOf_spec]
  omega

theorem sizeOf_of_record? {names : List String} {j v : Json} {r : Record} {name : String}
    (hr : record? names j = some r) (hv : r.get? name = some v) : sizeOf v < sizeOf j := by
  unfold record? at hr
  split at hr
  · next fields =>
    simp only [Option.ite_none_right_eq_some, Option.some.injEq] at hr
    obtain ⟨_, rfl⟩ := hr
    have h1 : sizeOf v < sizeOf (fields.filter fun f => names.contains f.1) :=
      sizeOf_of_lookup hv
    have h2 := sizeOf_filter fields fun f => names.contains f.1
    simp only [object.sizeOf_spec]; omega
  · next items =>
    simp only [Option.ite_none_right_eq_some, Option.some.injEq] at hr
    obtain ⟨_, rfl⟩ := hr
    have h1 : sizeOf v < sizeOf items := sizeOf_zip hv
    simp only [array.sizeOf_spec]; omega
  · cases hr

end Json

end IdlDocs
