import IdlDocs.Idl.Source
import IdlDocs.Members.Tests
import IdlDocs.Proofs.Text.Yields

/-!
# The members of source texts

An **identifier** starts with a letter or a digit, so that it is not empty.  Of the members
that a source text defines attributes and constants are named by identifiers, operations are
so if they have a name, constructors have no name, and declarations are named by their
keywords.  Attributes and constants have types, and constants are read-only.

* `IsIdentifier`, `Member.WellNamed`: identifiers, and the members with such names.
* `Member.WellFormed`: the members with all that their kind asks for.
* `wellFormed_interfaceMember`, `wellFormed_mixinMember`, `wellFormed_namespaceMember`: the
  grammar of members yields no others.
* `Definition.MadeOf`, `yields_definition`: **a definition is made of what the grammar of its
  parts yields.**
* `wellFormed_of_parse`: **all members that a source text defines are well formed.**
-/

namespace IdlDocs.Idl

open Text Text.Parser

/-- A name that starts with a letter or a digit, and goes on with characters of words. -/
def IsIdentifier (name : String) : Prop :=
  ∃ c cs, name = String.ofList (c :: cs) ∧ isAlnum c = true ∧ ∀ d ∈ cs, isWordChar d = true

theorem IsIdentifier.ne_empty {name : String} (h : IsIdentifier name) : name ≠ "" := by
  obtain ⟨c, cs, rfl, -, -⟩ := h
  intro he
  have := congrArg String.toList he
  simp at this

def declarationNames : List String :=
  ["iterable", "async iterable", "maplike", "setlike", "stringifier"]

def Member.WellNamed (m : Member) : Prop :=
  match m.kind with
  | .attr | .const => ∃ name, m.name = some name ∧ IsIdentifier name
  | .operation => ∀ name, m.name = some name → IsIdentifier name
  | .constructor => m.name = none
  | .declaration => ∃ name ∈ declarationNames, m.name = some name

namespace Member.WellNamed

variable {m : Member}

theorem name_ne_empty (h : m.WellNamed) : m.name ≠ some "" := by
  intro he
  unfold WellNamed at h
  cases hk : m.kind with
  | attr | const =>
    rw [hk] at h
    obtain ⟨name, hn, hi⟩ := h
    rw [he] at hn
    cases hn
    exact hi.ne_empty rfl
  | operation => rw [hk] at h; exact (h "" he).ne_empty rfl
  | constructor => rw [hk] at h; rw [he] at h; cases h
  | declaration =>
    rw [hk] at h
    obtain ⟨name, hn, hname⟩ := h
    rw [he] at hname
    cases hname
    exact absurd hn (by decide)

theorem isNamed_of_name {name : String} (h : m.WellNamed) (hn : m.name = some name) :
    m.isNamed = true := by
  unfold Member.isNamed Member.nameOrEmpty
  rw [hn]
  refine bne_iff_ne.2 fun he => h.name_ne_empty ?_
  rw [hn, ← he]
  rfl

theorem exists_name (h : m.WellNamed) (hm : m.isAttribute = true) :
    ∃ name, m.name = some name := by
  unfold Member.isAttribute at hm
  unfold WellNamed at h
  cases hk : m.kind with
  | attr | const => rw [hk] at h; exact h.imp fun _ hn => hn.1
  | operation | constructor | declaration => rw [hk] at hm; cases hm

/-- Attributes, constants and operations are named by identifiers. -/
theorem isIdentifier (h : m.WellNamed) (hm : m.isAttribute = true ∨ m.isOperation = true)
    {name : String} (hn : m.name = some name) : IsIdentifier name := by
  unfold Member.isAttribute Member.isOperation at hm
  unfold WellNamed at h
  cases hk : m.kind with
  | attr | const =>
    rw [hk] at h
    obtain ⟨other, ho, hi⟩ := h
    cases hn.symm.trans ho
    exact hi
  | operation => rw [hk] at h; exact h name hn
  | constructor | declaration => rw [hk] at hm; exact absurd hm (by decide)

theorem not_isConstructor {name : String} (h : m.WellNamed) (hn : m.name = some name) :
    m.isConstructor = false := by
  cases hc : m.isConstructor with
  | false => rfl
  | true =>
    unfold WellNamed at h
    rw [eq_of_beq hc] at h
    dsimp only at h
    rw [hn] at h
    cases h

end Member.WellNamed

/-- A member with all that its kind asks for. -/
structure Member.WellFormed (m : Member) : Prop where
  wellNamed : m.WellNamed
  typed : m.isAttribute = true → ∃ t, m.type = some t
  constant : m.kind = .const → m.readonly = true

theorem Member.WellNamed.wellFormed {m : Member} (h : m.WellNamed) (hm : m.isAttribute = false) :
    m.WellFormed where
  wellNamed := h
  typed ha := by rw [hm] at ha; cases ha
  constant hk := by
    unfold Member.isAttribute at hm
    rw [hk] at hm
    cases hm

/-! ## Tokens -/

theorem yields_token {α : Type} {P : α → Prop} {p : Parser α} (hp : Yields P p) :
    Yields P (token p) :=
  .skip fun _ => hp.bind fun _ ha => .skip fun _ => .pure ha

theorem yields_satisfy (p : Char → Bool) : Yields (fun c => p c = true) (satisfy p) := by
  intro s r c h
  unfold satisfy at h
  split at h
  · next c _ =>
    cases hc : p c with
    | true => rw [hc] at h; cases h; exact hc
    | false => rw [hc] at h; cases h
  · cases h

theorem yields_run (p : Char → Bool) :
    Yields (fun cs => ∀ c ∈ cs, p c = true) (Parser.run p) := by
  intro s r cs h
  cases h
  exact fun c hc => List.all_eq_true.1 List.all_takeWhile c hc

theorem yields_identifier : Yields IsIdentifier identifier :=
  yields_token (.skip fun _ => .bind
    (.bind (yields_satisfy isAlnum) fun c hc => .bind (yields_run isWordChar) fun cs hcs =>
      .pure (P := fun w => ∃ c cs, w = c :: cs ∧ isAlnum c = true ∧
        ∀ d ∈ cs, isWordChar d = true) ⟨c, cs, rfl, hc, hcs⟩)
    fun _ ⟨c, cs, hw, hc, hcs⟩ => .pure ⟨c, cs, by rw [hw], hc, hcs⟩)

/-! ## Members -/

variable {inner : Level}

theorem yields_attributeBody : Yields (fun x => IsIdentifier x.1) (attributeBody inner) :=
  .skip fun _ => .skip fun _ => yields_identifier.bind fun _ hn => .skip fun _ => .pure hn

theorem yields_operationBody :
    Yields (fun m => m.kind = .operation ∧ ∀ name, m.name = some name → IsIdentifier name)
      (operationBody inner) :=
  .skip fun _ => yields_identifier.optional.bind fun _ hn =>
    .skip fun _ => .skip fun _ => .pure ⟨rfl, hn⟩

theorem wellFormed_constantMember : Yields Member.WellFormed (constantMember inner) :=
  .skip fun _ => .skip fun _ => .skip fun type => yields_identifier.bind fun name hn =>
    .skip fun _ => .skip fun _ => .skip fun _ =>
      .pure ⟨⟨name, rfl, hn⟩, fun _ => ⟨type, rfl⟩, fun _ => rfl⟩

theorem wellFormed_attribute {name : String} (h : IsIdentifier name) (type : TypeExpr)
    (attributes : List String) (readonly : Bool) (qualifier : Qualifier) :
    { Member.ofAttribute name type with attributes, readonly, qualifier }.WellFormed :=
  ⟨⟨name, rfl, h⟩, fun _ => ⟨type, rfl⟩, nofun⟩

theorem wellFormed_attributeMember : Yields Member.WellFormed (attributeMember inner) :=
  .skip fun _ => .skip fun _ => .skip fun _ => yields_attributeBody.bind fun _ hn =>
    .pure (wellFormed_attribute hn _ _ _ _)

theorem wellFormed_constructorMember : Yields Member.WellFormed (constructorMember inner) :=
  .skip fun _ => .skip fun _ => .skip fun _ => .skip fun _ => .skip fun _ =>
    .pure (Member.WellNamed.wellFormed rfl rfl)

theorem wellFormed_operation {m : Member}
    (h : m.kind = .operation ∧ ∀ name, m.name = some name → IsIdentifier name)
    (attributes : List String) (qualifier : Qualifier) :
    { m with attributes, qualifier }.WellFormed := by
  refine Member.WellNamed.wellFormed ?_ ?_
  · unfold Member.WellNamed
    rw [h.1]
    exact h.2
  · unfold Member.isAttribute
    rw [h.1]
    rfl

theorem wellFormed_operationMember : Yields Member.WellFormed (operationMember inner) :=
  .skip fun _ => .skip fun _ => .skip fun _ => .skip fun _ =>
    yields_operationBody.bind fun _ h => .pure (wellFormed_operation h _ _)

theorem wellFormed_declaration {name : String} (h : name ∈ declarationNames)
    (rest : Parser Unit) : Yields Member.WellFormed (declaration inner name rest) :=
  .skip fun _ => .skip fun _ => .skip fun _ =>
    .pure (Member.WellNamed.wellFormed ⟨name, h, rfl⟩ rfl)

theorem wellFormed_declarationMember : Yields Member.WellFormed (declarationMember inner) := by
  have hname : ∀ name ∈ declarationNames, ∀ rest,
      Yields Member.WellFormed (declaration inner name rest) :=
    fun _ hn rest => wellFormed_declaration hn rest
  unfold declarationMember
  refine .orElse (hname _ (by decide) _) (.orElse (hname _ (by decide) _) ?_)
  refine .orElse (hname _ (by decide) _) (.orElse (hname _ (by decide) _) ?_)
  refine .orElse (hname _ (by decide) _) (.orElse (hname _ (by decide) _) ?_)
  exact hname _ (by decide) _

theorem wellFormed_interfaceMember : Yields Member.WellFormed (interfaceMember inner) :=
  .orElse wellFormed_constantMember <| .orElse wellFormed_attributeMember <|
    .orElse wellFormed_constructorMember <|
      .orElse wellFormed_operationMember wellFormed_declarationMember

theorem wellFormed_mixinMember : Yields Member.WellFormed (mixinMember inner) := by
  refine .orElse wellFormed_constantMember (.orElse ?_ (.orElse ?_ ?_))
  · exact .skip fun _ => .skip fun _ => yields_operationBody.bind fun _ h =>
      .pure (wellFormed_operation h _ _)
  · exact .skip fun _ => .skip fun _ => .skip fun _ => yields_attributeBody.bind fun _ hn =>
      .pure (wellFormed_attribute hn _ _ _ _)
  · exact wellFormed_declaration (by decide) _

theorem wellFormed_namespaceMember : Yields Member.WellFormed (namespaceMember inner) := by
  refine .orElse ?_ ?_
  · exact .skip fun _ => .skip fun _ => yields_operationBody.bind fun _ h =>
      .pure (wellFormed_operation h _ _)
  · exact .skip fun _ => .skip fun _ => .skip fun _ => yields_attributeBody.bind fun _ hn =>
      .pure (wellFormed_attribute hn _ _ _ _)

/-! ## Definitions -/

/-- What a definition is made of: members, fields, the type that it gives a name, and a parent. -/
structure Definition.MadeOf (P : Member → Prop) (F : Field → Prop) (T : TypeExpr → Prop)
    (d : Definition) : Prop where
  members : ∀ ms, d.members? = some ms → ∀ m ∈ ms, P m
  fields : ∀ f ∈ d.fields, F f
  type : ∀ name t, d = .typedef name t → T t
  parent : ∀ i, d.interface? = some i → ∀ p, i.parent = some p → IsIdentifier p

theorem yields_body {α : Type} {P : α → Prop} {member : Parser α} (h : Yields P member) :
    Yields (fun ms => ∀ m ∈ ms, P m) (body member) :=
  .skip fun _ => h.many.bind fun _ hms => .skip fun _ => .skip fun _ => .pure hms

theorem yields_parent : Yields (fun o => ∀ p, o = some p → IsIdentifier p) parent :=
  Yields.optional (.skip fun _ => yields_identifier)

section MadeOf

variable {P : Member → Prop} {F : Field → Prop} {T : TypeExpr → Prop}

theorem madeOf_interface {i : Interface} (h : ∀ m ∈ i.members, P m)
    (hparent : ∀ p, i.parent = some p → IsIdentifier p) :
    (Definition.interface i).MadeOf P F T where
  members ms hms := by cases hms; exact h
  fields f hf := absurd hf List.not_mem_nil
  type name t he := nomatch he
  parent j hj := by cases hj; exact hparent

theorem madeOf_dictionary {b : Dictionary} (h : ∀ f ∈ b.fields, F f) :
    (Definition.dictionary b).MadeOf P F T :=
  ⟨nofun, h, nofun, nofun⟩

theorem madeOf_nothing {d : Definition} (hi : d.interface? = none) (hf : d.fields = [])
    (ht : ∀ name t, d ≠ .typedef name t) : d.MadeOf P F T where
  members ms hms := by
    unfold Definition.members? at hms
    rw [hi] at hms
    cases hms
  fields f h := by rw [hf] at h; exact absurd h List.not_mem_nil
  type name t he := absurd he (ht name t)
  parent i he := by rw [hi] at he; cases he

theorem madeOf_plainInterface {kind : InterfaceKind} {isPartial : Bool}
    {keywords : List String} {member : Parser Member} (h : Yields P member) :
    Yields (Definition.MadeOf P F T) (plainInterface inner kind isPartial keywords member) := by
  unfold plainInterface
  refine .skip fun attributes => ?_
  have hrest : Yields (Definition.MadeOf P F T) (do
      keywords.forM keyword
      let name ← identifier
      let members ← body member
      return .interface { name, kind, isPartial, attributes, members }) :=
    .skip fun _ => .skip fun _ => (yields_body h).bind fun _ hms =>
      .pure (madeOf_interface hms nofun)
  cases isPartial with
  | false => exact hrest
  | true => exact .skip fun _ => hrest

/-- **A definition is made of what the grammar of its parts yields.** -/
theorem yields_definition (hi : Yields P (interfaceMember inner))
    (hm : Yields P (mixinMember inner)) (hn : Yields P (namespaceMember inner))
    (hf : Yields F (dictionaryField inner)) (ht : Yields T (attributedType inner)) :
    Yields (fun o => ∀ d, o = some d → d.MadeOf P F T) (definition inner) := by
  have hsome : ∀ {p : Parser Definition}, Yields (Definition.MadeOf P F T) p →
      Yields (fun o => ∀ d, o = some d → d.MadeOf P F T) (some <$> p) := fun hp =>
    .map fun s r a ha d hd => by cases hd; exact hp s r a ha
  have hnone : ∀ {d : Definition}, d.interface? = none → d.fields = [] →
      (∀ name t, d ≠ .typedef name t) → ∀ e, some d = some e → e.MadeOf P F T :=
    fun hi hf ht e he => by cases he; exact madeOf_nothing hi hf ht
  have callback : Yields (Definition.MadeOf P F T) (callbackDefinition inner) :=
    .skip fun _ => .skip fun _ => .skip fun _ => .skip fun _ => .skip fun _ => .skip fun _ =>
      .skip fun _ => .pure (madeOf_nothing rfl rfl nofun)
  have callbackInterface : Yields (Definition.MadeOf P F T) (callbackInterface inner) :=
    .skip fun _ => .skip fun _ => .skip fun _ => .skip fun _ => .skip fun _ => .skip fun _ =>
      (yields_body hi).bind fun _ hms => .pure (madeOf_interface hms nofun)
  have interface : Yields (Definition.MadeOf P F T) (interfaceDefinition inner) :=
    .skip fun _ => .skip fun _ => .skip fun _ => .skip fun _ => yields_parent.bind fun _ hp =>
      (yields_body hi).bind fun _ hms => .pure (madeOf_interface hms hp)
  have dictionary : Yields (Definition.MadeOf P F T) (dictionaryDefinition inner) :=
    .skip fun _ => .skip fun _ => .skip fun _ => .skip fun _ => .skip fun _ =>
      (yields_body hf).bind fun _ hfs => .pure (madeOf_dictionary hfs)
  have partialDictionary : Yields (Definition.MadeOf P F T) (partialDictionary inner) :=
    .skip fun _ => .skip fun _ => .skip fun _ => .skip fun _ =>
      (yields_body hf).bind fun _ hfs => .pure (madeOf_dictionary hfs)
  have enumeration : Yields (Definition.MadeOf P F T) (enumeration inner) :=
    .skip fun _ => .skip fun _ => .skip fun _ => .skip fun _ => .skip fun _ => .skip fun _ =>
      .skip fun _ => .skip fun _ => .skip fun _ => .pure (madeOf_nothing rfl rfl nofun)
  have typedef : Yields (Definition.MadeOf P F T) (typeDefinition inner) := by
    refine .skip fun _ => .skip fun _ => ht.bind fun t htype => .skip fun _ => .skip fun _ =>
      .pure ⟨nofun, fun f hf => absurd hf List.not_mem_nil, fun name u he => ?_, nofun⟩
    cases he
    exact htype
  unfold definition
  refine .orElse (hsome callback) (.orElse (hsome callbackInterface) ?_)
  refine .orElse (hsome interface) (.orElse (hsome (madeOf_plainInterface hm)) ?_)
  refine .orElse (hsome (.skip fun _ => madeOf_plainInterface hn)) ?_
  refine .orElse (hsome dictionary) (.orElse (hsome (madeOf_plainInterface hi)) ?_)
  refine .orElse (hsome (madeOf_plainInterface hm)) (.orElse (hsome partialDictionary) ?_)
  refine .orElse (hsome (madeOf_plainInterface hn)) (.orElse (hsome enumeration) ?_)
  refine .orElse (hsome typedef) (.orElse (.skip fun _ => .pure ?_) (.skip fun _ => .pure nofun))
  exact hnone rfl rfl nofun

end MadeOf

/-- What the grammar says about each definition holds of all that a source text defines. -/
theorem forall_of_parse {Q : Definition → Prop}
    (h : ∀ n, Yields (fun o => ∀ d, o = some d → Q d) (definition (levelAt n))) {source : String}
    {fs : Fragments} (hp : parse source = .ok fs) : ∀ d ∈ fs, Q d := by
  have hall : ∀ n, Yields (fun ds => ∀ d ∈ ds, Q d) (definitions (levelAt n)) := fun n =>
    (h n).many.bind fun os hos => .pure fun d hd => by
      obtain ⟨o, ho, hod⟩ := List.mem_filterMap.1 hd
      exact hos o ho d hod
  unfold parse parseChars at hp
  dsimp only at hp
  split at hp
  · cases hp
    unfold readDefinitions
    cases hd : definitions (levelAt (fillWildcards source.toList).length)
        (fillWildcards source.toList) with
    | none => exact fun d hd => absurd hd List.not_mem_nil
    | some x => exact hall _ _ _ _ hd
  · cases hp

theorem mem_members_iff {fs : Fragments} {m : Member} :
    m ∈ Fragments.members fs ↔ ∃ d ∈ fs, ∃ ms, d.members? = some ms ∧ m ∈ ms := by
  unfold Fragments.members
  rw [List.mem_flatten]
  constructor
  · rintro ⟨ms, hms, hm⟩
    obtain ⟨d, hd, hdm⟩ := List.mem_filterMap.1 hms
    exact ⟨d, hd, ms, hdm, hm⟩
  · rintro ⟨d, hd, ms, hdm, hm⟩
    exact ⟨ms, List.mem_filterMap.2 ⟨d, hd, hdm⟩, hm⟩

/-- **All members that a source text defines are well formed.** -/
theorem wellFormed_of_parse {source : String} {fs : Fragments} (h : parse source = .ok fs) :
    ∀ m ∈ Fragments.members fs, m.WellFormed := by
  intro m hm
  obtain ⟨d, hd, ms, hms, hm⟩ := mem_members_iff.1 hm
  have hmade := forall_of_parse (fun n => yields_definition (F := fun _ => True)
    (T := fun _ => True) wellFormed_interfaceMember wellFormed_mixinMember
    wellFormed_namespaceMember .trivial .trivial) h d hd
  exact hmade.members ms hms m hm

theorem wellNamed_of_parse {source : String} {fs : Fragments} (h : parse source = .ok fs) :
    ∀ m ∈ Fragments.members fs, m.WellNamed := fun m hm => (wellFormed_of_parse h m hm).wellNamed

end IdlDocs.Idl
