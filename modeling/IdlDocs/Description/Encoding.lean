import IdlDocs.Description.Basic
import IdlDocs.Json.Record

/-!
# Descriptions as JSON

The JSON form of a description says its kind in one field and its content in another.

* `Description.toJson`, `Description.ofJson?`: writing and reading.
-/

namespace IdlDocs.Description

def form (kind : String) (value : Json) : Json :=
  .object [("kind", .string kind), ("value", value)]

mutual

/-- The JSON form of a description. -/
def toJson : Description → Json
  | text label => form "text" (.string label)
  | reference name => form "reference" (.string name)
  | oneOf members => form "oneOf" (.array (listToJson members))
  | arrayOf inner => form "arrayOf" inner.toJson
  | keyValue key value =>
    form "keyValue" (.object [("key", key.toJson), ("value", value.toJson)])
  | promiseOf inner => form "promiseOf" inner.toJson
  | genericOf tag inner =>
    form "genericOf" (.object [("tag", .string tag), ("inner", inner.toJson)])
  | dictionary keys => form "dictionary" (.array (keysToJson keys))
  | enumValues values => form "enumValues" (.strings values)

def listToJson : List Description → List Json
  | [] => []
  | d :: ds => d.toJson :: listToJson ds

def keysToJson : List (String × Bool × Description) → List Json
  | [] => []
  | (name, mayMiss, d) :: keys =>
    .object [("name", .string name), ("optional", .bool mayMiss), ("description", d.toJson)] ::
      keysToJson keys

end

def formRecord? (j : Json) : Option Record := Json.record? ["kind", "value"] j

def kind? (j : Json) : Option String := do (← formRecord? j).required? "kind" Json.word?

def content? (j : Json) : Option Json := do (← formRecord? j).get? "value"

theorem sizeOf_of_content? {j v : Json} (h : content? j = some v) : sizeOf v < sizeOf j := by
  obtain ⟨r, hr, hv⟩ := Option.bind_eq_some_iff.1 h
  exact Json.sizeOf_of_record? hr hv

/-- The description with the given JSON form. -/
def ofJson? (j : Json) : Option Description :=
  match hc : content? j with
  | none => none
  | some v =>
    have := sizeOf_of_content? hc
    match (kind? j).getD "" with
    | "text" => text <$> v.string?
    | "reference" => reference <$> v.string?
    | "enumValues" => enumValues <$> v.strings?
    | "arrayOf" => arrayOf <$> ofJson? v
    | "promiseOf" => promiseOf <$> ofJson? v
    | "oneOf" =>
      match v with
      | .array members => do
        return oneOf (← members.attach.mapM fun ⟨d, hd⟩ =>
          have := Json.sizeOf_of_mem hd
          ofJson? d)
      | _ => none
    | "keyValue" =>
      match hr : Json.record? ["key", "value"] v with
      | none => none
      | some r =>
        match hk : r.get? "key", hv : r.get? "value" with
        | some key, some value =>
          have := Json.sizeOf_of_record? hr hk
          have := Json.sizeOf_of_record? hr hv
          do return keyValue (← ofJson? key) (← ofJson? value)
        | _, _ => none
    | "genericOf" =>
      match hr : Json.record? ["tag", "inner"] v with
      | none => none
      | some r => do
        let tag ← r.required? "tag" Json.string?
        match hi : r.get? "inner" with
        | some inner =>
          have := Json.sizeOf_of_record? hr hi
          return genericOf tag (← ofJson? inner)
        | none => none
    | "dictionary" =>
      match v with
      | .array keys => do
        return dictionary (← keys.attach.mapM fun ⟨k, hk⟩ =>
          have := Json.sizeOf_of_mem hk
          match hr : Json.record? ["name", "optional", "description"] k with
          | none => none
          | some r => do
            let name ← r.required? "name" Json.string?
            let mayMiss ← r.required? "optional" Json.bool?
            match hd : r.get? "description" with
            | some d =>
              have := Json.sizeOf_of_record? hr hd
              return (name, mayMiss, ← ofJson? d)
            | none => none)
      | _ => none
    | _ => none
termination_by sizeOf j
decreasing_by all_goals omega

end IdlDocs.Description
