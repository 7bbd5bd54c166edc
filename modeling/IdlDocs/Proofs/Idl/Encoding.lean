import IdlDocs.Idl.Encoding
import IdlDocs.Proofs.Json.Omission

/-!
# Definitions survive their JSON form

The fields that say nothing may be left out of the form of a definition, at any selection of
places and at every depth.  What is read is the definition with these fields at their defaults.

* `Argument.omittable`, …, `Definition.omittable`: the places of fields that may be left out.
* `Argument.reset`, …, `Definition.reset`: the fields at a selection have their defaults.
* `TypeExpr.ofJson?_toJson`, `Argument.ofJson?_without`, …, `Definition.ofJson?_without`: what is
  read from the forms.
* `definitions_lossless`: **every definition and every list of definitions is read back, and
  what is left out has its default.**
-/

namespace IdlDocs.Idl

open Json (Selection Step)

variable {s : Selection}

/-! ## Texts and words -/

theorem strings?_strings (l : List String) : Json.strings? (.strings l) = some l := by
  unfold Json.strings? Json.strings
  rw [Json.array?, Option.bind_some]
  induction l with
  | nil => rfl
  | cons a l ih => rw [List.map_cons, List.mapM_cons, ih]; rfl

theorem attributeOfJson?_object (name : String) :
    attributeOfJson? (.object [("name", .string name)]) = some name := rfl

/-- The names of extended attributes are read back. -/
theorem list?_attributes (hs : s.Spares) (names : List String) :
    Json.list? attributeOfJson? ((Json.array (attributesToJson names)).without s) =
      some names := by
  rw [Json.without_of_spares _ hs]
  unfold Json.list? attributesToJson
  rw [Json.array?, Option.bind_some]
  induction names with
  | nil => rfl
  | cons name names ih =>
    rw [List.map_cons, List.mapM_cons, attributeOfJson?_object, ih]
    rfl

theorem GenericKind.ofJson?_toJson (kind : GenericKind) : ofJson? kind.toJson = some kind := by
  cases kind with
  | other tag => rfl
  | sequence | frozenArray | observableArray | array | record | promise => decide +kernel

theorem MemberKind.choice?_toWord (kind : MemberKind) :
    Json.choice? words (.string kind.toWord) = some kind := by
  cases kind <;> decide +kernel

theorem Qualifier.choice?_toWord (q : Qualifier) :
    Json.choice? words (.string q.toWord) = some q := by
  cases q <;> decide +kernel

theorem InterfaceKind.choice?_toWord (kind : InterfaceKind) :
    Json.choice? words (.string kind.toWord) = some kind := by
  cases kind <;> decide +kernel

/-! ## Types -/

namespace TypeExpr

theorem mapM_attach (js : List Json) :
    (js.attach.mapM fun ⟨j, _⟩ => ofJson? j) = js.mapM ofJson? := by
  simp

theorem ofJson?_union (members : List Json) :
    ofJson? (.object [("union", .array members)]) = (members.mapM ofJson?).map union := by
  rw [ofJson?, mapM_attach]
  cases members.mapM ofJson? <;> rfl

theorem ofJson?_generic (kind : GenericKind) (args : List Json) :
    ofJson? (.object [("generic", .object [("kind", kind.toJson), ("args", .array args)])]) =
      (args.mapM ofJson?).map (generic kind) := by
  have hrecord : Json.record? ["kind", "args"]
      (.object [("kind", kind.toJson), ("args", .array args)]) =
        some ⟨[("kind", kind.toJson), ("args", .array args)], false⟩ := by
    have hdistinct : ["kind", "args"].Nodup := by decide +kernel
    exact Json.record?_object (List.Sublist.refl _) hdistinct
  rw [ofJson?]
  split
  · next h => rw [hrecord] at h; cases h
  · next r h =>
    rw [hrecord] at h
    cases h
    have hargs : (⟨[("kind", kind.toJson), ("args", .array args)], false⟩ : Record).get? "args" =
        some (.array args) := rfl
    have hkind : (⟨[("kind", kind.toJson), ("args", .array args)], false⟩ : Record).required?
        "kind" GenericKind.ofJson? = some kind := kind.ofJson?_toJson
    rw [hkind]
    split
    · next items h =>
      rw [hargs] at h
      cases h
      rw [mapM_attach]
      cases args.mapM ofJson? <;> rfl
    · next hno => exact absurd hargs (hno args)

mutual

/-- **Every type is read back from its form.** -/
theorem ofJson?_toJson : ∀ t : TypeExpr, ofJson? t.toJson = some t
  | named name => by rw [toJson, ofJson?]
  | union members => by
    rw [toJson, ofJson?_union, mapM_listToJson members]
    rfl
  | generic kind args => by
    rw [toJson, ofJson?_generic, mapM_listToJson args]
    rfl
  | nullable inner => by
    rw [toJson, ofJson?, ofJson?_toJson inner]
    rfl

theorem mapM_listToJson : ∀ ts : List TypeExpr, (listToJson ts).mapM ofJson? = some ts
  | [] => by rw [listToJson]; rfl
  | t :: ts => by
    rw [listToJson, List.mapM_cons, ofJson?_toJson t, mapM_listToJson ts]
    rfl

end

/-- Nothing in the form of a type may be left out. -/
theorem ofJson?_without (hs : s.Spares) (t : TypeExpr) :
    ofJson? (t.toJson.without s) = some t := by
  rw [Json.without_of_spares _ hs, t.ofJson?_toJson]

theorem nullable?_without (hs : s.Spares) (t : TypeExpr) :
    Json.nullable? ofJson? (t.toJson.without s) = some (some t) := by
  have ht : (ofJson? t.toJson).map some = some (some t) := by rw [t.ofJson?_toJson]; rfl
  rw [Json.without_of_spares _ hs]
  cases t <;> exact ht

end TypeExpr

/-! ## Arguments -/

namespace Argument

/-- The places of the fields of an argument that may be left out. -/
def omittable : Selection
  | [.field key] => ["optional", "variadic", "extAttrs"].contains key
  | _ => false

/-- An argument with the defaults of the fields at a selection. -/
def reset (s : Selection) (a : Argument) : Argument where
  name := a.name
  type := a.type
  optional := s.reset "optional" false a.optional
  variadic := s.reset "variadic" false a.variadic
  attributes := s.reset "extAttrs" [] a.attributes

def jsonFields (a : Argument) : List (String × Option Json) :=
  [("name", some (.string a.name)), ("idlType", some a.type.toJson),
    ("optional", some (.bool a.optional)), ("variadic", some (.bool a.variadic)),
    ("extAttrs", Json.arrayUnlessEmpty (attributesToJson a.attributes))]

theorem keys_jsonFields (a : Argument) :
    a.jsonFields.map Prod.fst = ["name", "idlType", "optional", "variadic", "extAttrs"] := rfl

/-- An argument is read from what is left of its form. -/
theorem ofJson?_without (a : Argument) (hs : s.Within omittable) :
    ofJson? (a.toJson.without s) = some (a.reset s) := by
  have hd : (a.jsonFields.map Prod.fst).Nodup := by
    rw [keys_jsonFields]
    decide +kernel
  have hname : (Record.left s a.jsonFields).required? "name" Json.string? = some a.name :=
    Record.required?_string hd (hs.eq_false rfl) rfl
  have htype : (Record.left s a.jsonFields).required? "idlType" TypeExpr.ofJson? =
      some a.type :=
    Record.required?_without hd (hs.eq_false rfl) rfl
      (a.type.ofJson?_without ((hs.behind _).spares fun _ _ => rfl))
  have hoptional : (Record.left s a.jsonFields).withDefault? "optional" false Json.bool? =
      some (s.reset "optional" false a.optional) := Record.withDefault?_bool hd rfl
  have hvariadic : (Record.left s a.jsonFields).withDefault? "variadic" false Json.bool? =
      some (s.reset "variadic" false a.variadic) := Record.withDefault?_bool hd rfl
  have hattributes : (Record.left s a.jsonFields).withDefault? "extAttrs" []
      (Json.list? attributeOfJson?) = some (s.reset "extAttrs" [] a.attributes) :=
    Record.list?_without hd rfl
      (list?_attributes ((hs.behind _).spares fun _ _ => rfl) a.attributes)
  have hrecord := Json.record?_without (s := s) a.keys_jsonFields (a.keys_jsonFields ▸ hd)
  unfold ofJson?
  rw [show a.toJson = .ofFields a.jsonFields from rfl, hrecord, Option.bind_eq_bind,
    Option.bind_some, hname, htype, hoptional, hvariadic, hattributes]
  rfl

end Argument

/-! ## Members -/

namespace Member

/-- The places of the fields of a member and of its arguments that may be left out. -/
def omittable : Selection
  | [.field key] =>
    ["name", "special", "readonly", "idlType", "extAttrs", "arguments"].contains key
  | .field key :: .item _ :: place => key == "arguments" && Argument.omittable place
  | _ => false

/-- A member with the defaults of the fields at a selection. -/
def reset (s : Selection) (m : Member) : Member where
  kind := m.kind
  name := s.reset "name" none m.name
  qualifier := s.reset "special" .plain m.qualifier
  readonly := s.reset "readonly" false m.readonly
  type := s.reset "idlType" none m.type
  attributes := s.reset "extAttrs" [] m.attributes
  arguments := s.reset "arguments" []
    (m.arguments.mapIdx fun i a => a.reset ((s.behind (.field "arguments")).behind (.item i)))

def jsonFields (m : Member) : List (String × Option Json) :=
  [("kind", some (.string m.kind.toWord)), ("name", m.name.map .string),
    ("special", some (.string m.qualifier.toWord)), ("readonly", some (.bool m.readonly)),
    ("idlType", m.type.map TypeExpr.toJson),
    ("extAttrs", Json.arrayUnlessEmpty (attributesToJson m.attributes)),
    ("arguments", Json.arrayUnlessEmpty (m.arguments.map Argument.toJson))]

theorem keys_jsonFields (m : Member) : m.jsonFields.map Prod.fst =
    ["kind", "name", "special", "readonly", "idlType", "extAttrs", "arguments"] := rfl

/-- A member is read from what is left of its form. -/
theorem ofJson?_without (m : Member) (hs : s.Within omittable) :
    ofJson? (m.toJson.without s) = some (m.reset s) := by
  have hd : (m.jsonFields.map Prod.fst).Nodup := by
    rw [keys_jsonFields]
    decide +kernel
  have hkind : (Record.left s m.jsonFields).required? "kind" (Json.choice? MemberKind.words) =
      some m.kind :=
    Record.required?_without hd (hs.eq_false rfl) rfl (by
      rw [Json.without_string]
      exact m.kind.choice?_toWord)
  have hname : (Record.left s m.jsonFields).optional? "name" Json.string? =
      some (s.reset "name" none m.name) := Record.optional?_string hd rfl
  have hqualifier : (Record.left s m.jsonFields).withDefault? "special" .plain
      (Json.choice? Qualifier.words) = some (s.reset "special" .plain m.qualifier) :=
    Record.withDefault?_without hd Qualifier.plain rfl (by
      rw [Json.without_string]
      exact m.qualifier.choice?_toWord)
  have hreadonly : (Record.left s m.jsonFields).withDefault? "readonly" false Json.bool? =
      some (s.reset "readonly" false m.readonly) := Record.withDefault?_bool hd rfl
  have htype : (Record.left s m.jsonFields).optional? "idlType" TypeExpr.ofJson? =
      some (s.reset "idlType" none m.type) :=
    Record.optional?_without hd rfl fun t _ =>
      t.nullable?_without ((hs.behind _).spares fun step _ => by cases step <;> rfl)
  have hattributes : (Record.left s m.jsonFields).withDefault? "extAttrs" []
      (Json.list? attributeOfJson?) = some (s.reset "extAttrs" [] m.attributes) :=
    Record.list?_without hd rfl
      (list?_attributes ((hs.behind _).spares fun step _ => by cases step <;> rfl) m.attributes)
  have harguments : (Record.left s m.jsonFields).withDefault? "arguments" []
      (Json.list? Argument.ofJson?) = some (m.reset s).arguments :=
    Record.list?_without hd rfl (Json.list?_array_without fun a _ i =>
      a.ofJson?_without ((hs.behind (.field "arguments")).behind (.item i)))
  have hrecord := Json.record?_without (s := s) m.keys_jsonFields (m.keys_jsonFields ▸ hd)
  unfold ofJson?
  rw [show m.toJson = .ofFields m.jsonFields from rfl, hrecord, Option.bind_eq_bind,
    Option.bind_some, hkind, hname, hqualifier, hreadonly, htype, hattributes, harguments]
  rfl

end Member

/-! ## Fields of dictionaries -/

namespace Field

/-- The places of the fields of a field that may be left out. -/
def omittable : Selection
  | [.field key] => key == "required"
  | _ => false

/-- A field with the defaults of the fields at a selection. -/
def reset (s : Selection) (f : Field) : Field where
  name := f.name
  type := f.type
  required := s.reset "required" false f.required

def jsonFields (f : Field) : List (String × Option Json) :=
  [("name", some (.string f.name)), ("idlType", some f.type.toJson),
    ("required", some (.bool f.required))]

theorem keys_jsonFields (f : Field) :
    f.jsonFields.map Prod.fst = ["name", "idlType", "required"] := rfl

/-- A field is read from what is left of its form. -/
theorem ofJson?_without (f : Field) (hs : s.Within omittable) :
    ofJson? (f.toJson.without s) = some (f.reset s) := by
  have hd : (f.jsonFields.map Prod.fst).Nodup := by
    rw [keys_jsonFields]
    decide +kernel
  have hname : (Record.left s f.jsonFields).required? "name" Json.string? = some f.name :=
    Record.required?_string hd (hs.eq_false rfl) rfl
  have htype : (Record.left s f.jsonFields).required? "idlType" TypeExpr.ofJson? =
      some f.type :=
    Record.required?_without hd (hs.eq_false rfl) rfl
      (f.type.ofJson?_without ((hs.behind _).spares fun _ _ => rfl))
  have hrequired : (Record.left s f.jsonFields).withDefault? "required" false Json.bool? =
      some (s.reset "required" false f.required) := Record.withDefault?_bool hd rfl
  have hrecord := Json.record?_without (s := s) f.keys_jsonFields (f.keys_jsonFields ▸ hd)
  unfold ofJson?
  rw [show f.toJson = .ofFields f.jsonFields from rfl, hrecord, Option.bind_eq_bind,
    Option.bind_some, hname, htype, hrequired]
  rfl

end Field

/-! ## Definitions with members -/

namespace Interface

/-- The places of the fields of a definition with members that may be left out. -/
def omittable : Selection
  | [.field key] => ["partial", "inheritance", "extAttrs", "members"].contains key
  | .field key :: .item _ :: place => key == "members" && Member.omittable place
  | _ => false

/-- A definition with members with the defaults of the fields at a selection. -/
def reset (s : Selection) (b : Interface) : Interface where
  name := b.name
  kind := b.kind
  isPartial := s.reset "partial" false b.isPartial
  parent := s.reset "inheritance" none b.parent
  attributes := s.reset "extAttrs" [] b.attributes
  members := s.reset "members" []
    (b.members.mapIdx fun i m => m.reset ((s.behind (.field "members")).behind (.item i)))

def jsonFields (b : Interface) : List (String × Option Json) :=
  [("name", some (.string b.name)), ("kind", some (.string b.kind.toWord)),
    ("partial", some (.bool b.isPartial)), ("inheritance", b.parent.map .string),
    ("extAttrs", Json.arrayUnlessEmpty (attributesToJson b.attributes)),
    ("members", some (.array (b.members.map Member.toJson)))]

theorem keys_jsonFields (b : Interface) : b.jsonFields.map Prod.fst =
    ["name", "kind", "partial", "inheritance", "extAttrs", "members"] := rfl

/-- A definition with members is read from what is left of its form. -/
theorem interfaceOfJson?_without (b : Interface) (hs : s.Within omittable) :
    Definition.interfaceOfJson? ((Json.ofFields b.jsonFields).without s) =
      some (.interface (b.reset s)) := by
  have hd : (b.jsonFields.map Prod.fst).Nodup := by
    rw [keys_jsonFields]
    decide +kernel
  have hname : (Record.left s b.jsonFields).required? "name" Json.string? = some b.name :=
    Record.required?_string hd (hs.eq_false rfl) rfl
  have hkind : (Record.left s b.jsonFields).required? "kind" (Json.choice? InterfaceKind.words) =
      some b.kind :=
    Record.required?_without hd (hs.eq_false rfl) rfl (by
      rw [Json.without_string]
      exact b.kind.choice?_toWord)
  have hpartial : (Record.left s b.jsonFields).withDefault? "partial" false Json.bool? =
      some (s.reset "partial" false b.isPartial) := Record.withDefault?_bool hd rfl
  have hparent : (Record.left s b.jsonFields).optional? "inheritance" Json.string? =
      some (s.reset "inheritance" none b.parent) := Record.optional?_string hd rfl
  have hattributes : (Record.left s b.jsonFields).withDefault? "extAttrs" []
      (Json.list? attributeOfJson?) = some (s.reset "extAttrs" [] b.attributes) :=
    Record.list?_without hd rfl
      (list?_attributes ((hs.behind _).spares fun step _ => by cases step <;> rfl) b.attributes)
  have hmembers : (Record.left s b.jsonFields).withDefault? "members" []
      (Json.list? Member.ofJson?) = some (b.reset s).members :=
    Record.withDefault?_without hd [] rfl (Json.list?_array_without fun m _ i =>
      m.ofJson?_without ((hs.behind (.field "members")).behind (.item i)))
  have hrecord := Json.record?_without (s := s) b.keys_jsonFields (b.keys_jsonFields ▸ hd)
  unfold Definition.interfaceOfJson?
  rw [hrecord, Option.bind_eq_bind, Option.bind_some, hname, hkind, hpartial, hparent,
    hattributes, hmembers]
  rfl

end Interface

/-! ## Dictionaries -/

namespace Dictionary

/-- The places of the fields of a dictionary that may be left out. -/
def omittable : Selection
  | [.field key] => ["partial", "inheritance", "fields"].contains key
  | .field key :: .item _ :: place => key == "fields" && Field.omittable place
  | _ => false

/-- A dictionary with the defaults of the fields at a selection. -/
def reset (s : Selection) (b : Dictionary) : Dictionary where
  name := b.name
  isPartial := s.reset "partial" false b.isPartial
  parent := s.reset "inheritance" none b.parent
  fields := s.reset "fields" []
    (b.fields.mapIdx fun i f => f.reset ((s.behind (.field "fields")).behind (.item i)))

def jsonFields (b : Dictionary) : List (String × Option Json) :=
  [("name", some (.string b.name)), ("partial", some (.bool b.isPartial)),
    ("inheritance", b.parent.map .string),
    ("fields", some (.array (b.fields.map Field.toJson)))]

theorem keys_jsonFields (b : Dictionary) :
    b.jsonFields.map Prod.fst = ["name", "partial", "inheritance", "fields"] := rfl

theorem dictionaryOfJson?_without (b : Dictionary) (hs : s.Within omittable) :
    Definition.dictionaryOfJson? ((Json.ofFields b.jsonFields).without s) =
      some (.dictionary (b.reset s)) := by
  have hd : (b.jsonFields.map Prod.fst).Nodup := by
    rw [keys_jsonFields]
    decide +kernel
  have hname : (Record.left s b.jsonFields).required? "name" Json.string? = some b.name :=
    Record.required?_string hd (hs.eq_false rfl) rfl
  have hpartial : (Record.left s b.jsonFields).withDefault? "partial" false Json.bool? =
      some (s.reset "partial" false b.isPartial) := Record.withDefault?_bool hd rfl
  have hparent : (Record.left s b.jsonFields).optional? "inheritance" Json.string? =
      some (s.reset "inheritance" none b.parent) := Record.optional?_string hd rfl
  have hfields : (Record.left s b.jsonFields).withDefault? "fields" []
      (Json.list? Field.ofJson?) = some (b.reset s).fields :=
    Record.withDefault?_without hd [] rfl (Json.list?_array_without fun f _ i =>
      f.ofJson?_without ((hs.behind (.field "fields")).behind (.item i)))
  have hrecord := Json.record?_without (s := s) b.keys_jsonFields (b.keys_jsonFields ▸ hd)
  unfold Definition.dictionaryOfJson?
  rw [hrecord, Option.bind_eq_bind, Option.bind_some, hname, hpartial, hparent, hfields]
  rfl

end Dictionary

/-! ## Definitions -/

namespace Definition

/-- The places of the fields in a definition that may be left out. -/
def omittable : Definition → Selection
  | interface _ => Interface.omittable
  | dictionary _ => Dictionary.omittable
  | enumeration _ | typedef _ _ | callback _ _ | includes _ _ => .nowhere

/-- A definition with the defaults of the fields at a selection. -/
def reset (s : Selection) : Definition → Definition
  | interface b => interface (b.reset s)
  | dictionary b => dictionary (b.reset s)
  | enumeration b => enumeration b
  | typedef name type => typedef name type
  | callback name returns => callback name returns
  | includes target mixin => includes target mixin

/-- The form of a definition is told by its word. -/
theorem ofJson?_tagged {word : String} {fields : List (String × Option Json)}
    {read : Json → Option Definition} (hread : readers.lookup word = some read)
    (hs : s [.field "type"] = false) (htag : "type" ∉ fields.map Prod.fst) :
    ofJson? ((Json.ofFields (("type", some (.string word)) :: fields)).without s) =
      read ((Json.ofFields fields).without s) := by
  unfold ofJson?
  rw [Json.tagged?_without hs htag, Option.bind_eq_bind, Option.bind_some]
  dsimp only
  rw [hread]
  rfl

/-- A definition with two fields, of which neither may be left out. -/
theorem ofJson?_pair {α β : Type} (word first second : String) {make : α → β → Definition}
    {decodeFirst : Json → Option α} {decodeSecond : Json → Option β}
    (hread : readers.lookup word = some fun j => do
      let r ← Json.record? [first, second] j
      return make (← r.required? first decodeFirst) (← r.required? second decodeSecond))
    (hdistinct : ["type", first, second].Nodup) (hs : s.Within .nowhere) {i j : Json} {a : α}
    {b : β}
    (ha : decodeFirst i = some a) (hb : decodeSecond j = some b) :
    ofJson? ((Json.object [("type", .string word), (first, i), (second, j)]).without s) =
      some (make a b) := by
  obtain ⟨htag, hd⟩ := List.nodup_cons.1 hdistinct
  have hspares : s.Spares := hs.spares Selection.spares_nowhere
  let fields := [(first, some i), (second, some j)]
  have hkeys : fields.map Prod.fst = [first, second] := rfl
  have hfirst : (Record.left s fields).required? first decodeFirst = some a :=
    Record.required?_without (hkeys ▸ hd) (hs.eq_false rfl) List.lookup_cons_self (by
      rw [Json.without_of_spares _ (hspares.behind _), ha])
  have hsecond : (Record.left s fields).required? second decodeSecond = some b := by
    have hne : second ≠ first := fun he => by rw [he] at hd; simp at hd
    have hlookup : fields.lookup second = some (some j) := by
      rw [List.lookup_cons, beq_eq_false_iff_ne.2 hne]
      exact List.lookup_cons_self
    exact Record.required?_without (hkeys ▸ hd) (hs.eq_false rfl) hlookup (by
      rw [Json.without_of_spares _ (hspares.behind _), hb])
  have hbody : "type" ∉ fields.map Prod.fst := htag
  refine (ofJson?_tagged hread (hs.eq_false rfl) hbody).trans ?_
  rw [Json.record?_without hkeys hd, Option.bind_eq_bind, Option.bind_some, hfirst, hsecond]
  rfl

/-- **A definition is read from what is left of its form, with defaults for the fields that are
left out.** -/
theorem ofJson?_without (d : Definition) (hs : s.Within d.omittable) :
    ofJson? (d.toJson.without s) = some (d.reset s) := by
  cases d with
  | interface b =>
    have hread : readers.lookup "interface" = some interfaceOfJson? := rfl
    have htag : "type" ∉ b.jsonFields.map Prod.fst := by
      rw [b.keys_jsonFields]
      decide +kernel
    exact (ofJson?_tagged hread (hs.eq_false rfl) htag).trans (b.interfaceOfJson?_without hs)
  | dictionary b =>
    have hread : readers.lookup "dictionary" = some dictionaryOfJson? := rfl
    have htag : "type" ∉ b.jsonFields.map Prod.fst := by
      rw [b.keys_jsonFields]
      decide +kernel
    exact (ofJson?_tagged hread (hs.eq_false rfl) htag).trans (b.dictionaryOfJson?_without hs)
  | enumeration b =>
    have hname : Json.string? (.string b.name) = some b.name := rfl
    exact ofJson?_pair "enum" "name" "values" rfl (by decide +kernel) hs hname
      (strings?_strings b.values)
  | typedef name type =>
    have hname : Json.string? (.string name) = some name := rfl
    exact ofJson?_pair "typedef" "name" "idl_type" rfl (by decide +kernel) hs hname
      type.ofJson?_toJson
  | callback name returns =>
    have hname : Json.string? (.string name) = some name := rfl
    exact ofJson?_pair "callback" "name" "return_type" rfl (by decide +kernel) hs hname
      returns.ofJson?_toJson
  | includes target mixin =>
    have htarget : Json.string? (.string target) = some target := rfl
    have hmixin : Json.string? (.string mixin) = some mixin := rfl
    exact ofJson?_pair "includes" "target" "mixin" rfl (by decide +kernel) hs htarget hmixin

end Definition

/-! ## Nothing left out -/

theorem Member.reset_nowhere (m : Member) : m.reset .nowhere = m := by
  have harguments : (m.reset .nowhere).arguments = m.arguments :=
    Json.mapIdx_eq_self fun _ _ => rfl
  have hrest : m.reset .nowhere = { m with arguments := (m.reset .nowhere).arguments } := rfl
  rw [hrest, harguments]

theorem Interface.reset_nowhere (b : Interface) : b.reset .nowhere = b := by
  have hmembers : (b.reset .nowhere).members = b.members :=
    Json.mapIdx_eq_self fun _ m => m.reset_nowhere
  have hrest : b.reset .nowhere = { b with members := (b.reset .nowhere).members } := rfl
  rw [hrest, hmembers]

theorem Dictionary.reset_nowhere (b : Dictionary) : b.reset .nowhere = b := by
  have hfields : (b.reset .nowhere).fields = b.fields := Json.mapIdx_eq_self fun _ _ => rfl
  have hrest : b.reset .nowhere = { b with fields := (b.reset .nowhere).fields } := rfl
  rw [hrest, hfields]

theorem Definition.reset_nowhere (d : Definition) : d.reset .nowhere = d := by
  cases d with
  | interface b => rw [reset, b.reset_nowhere]
  | dictionary b => rw [reset, b.reset_nowhere]
  | enumeration b => rfl
  | typedef name type => rfl
  | callback name returns => rfl
  | includes target mixin => rfl

theorem Definition.ofJson?_toJson (d : Definition) : ofJson? d.toJson = some d := by
  have h := d.ofJson?_without (Selection.nowhere_within d.omittable)
  rwa [Json.without_of_spares _ Selection.spares_nowhere, d.reset_nowhere] at h

/-- **Definitions survive their JSON form.**  Every definition and every list of definitions is
read back from its form.  Where fields that may be left out are missing, at any selection of
places, the definition is read with these fields at their defaults. -/
theorem definitions_lossless :
    (∀ d : Definition, Definition.ofJson? d.toJson = some d) ∧
    (∀ ds : List Definition,
      Json.list? Definition.ofJson? (.array (ds.map Definition.toJson)) = some ds) ∧
    ∀ (d : Definition) (s : Selection), s.Within d.omittable →
      Definition.ofJson? (d.toJson.without s) = some (d.reset s) :=
  ⟨Definition.ofJson?_toJson, Json.list?_array Definition.ofJson?_toJson,
    fun d _ hs => d.ofJson?_without hs⟩

/-- An interface with one operation, whose argument has a generic type with a tag of its own. -/
def watcher : Definition :=
  .interface
    { name := "Watcher"
      isPartial := true
      members :=
        [{ kind := .operation, name := some "watch", qualifier := .static
           arguments :=
            [{ name := "targets", type := .generic (.other "Weak") [.nullable (.named "Node")]
               variadic := true }] }] }

def watcherPlaces : Selection := fun place =>
  [[.field "partial"], [.field "members", .item 0, .field "special"],
    [.field "members", .item 0, .field "arguments", .item 0, .field "variadic"]].contains place

/-- The interface is read back, and with defaults at the three places. -/
theorem definitions_lossless_watcher :
    Definition.ofJson? watcher.toJson = some watcher ∧
    watcherPlaces.Within watcher.omittable ∧
    Definition.ofJson? (watcher.toJson.without watcherPlaces) =
      some (.interface
        { name := "Watcher"
          members :=
            [{ kind := .operation, name := some "watch"
               arguments :=
                [{ name := "targets"
                   type := .generic (.other "Weak") [.nullable (.named "Node")] }] }] }) := by
  have hplaces : watcherPlaces.Within watcher.omittable := by
    intro place hplace
    have hmem := List.contains_iff_mem.1 hplace
    simp only [List.mem_cons, List.not_mem_nil, or_false] at hmem
    rcases hmem with rfl | rfl | rfl <;> rfl
  exact ⟨definitions_lossless.1 watcher, hplaces,
    definitions_lossless.2.2 watcher watcherPlaces hplaces⟩

end IdlDocs.Idl
