import IdlDocs.Proofs.Idl.Mixins.Calls

/-!
# Members in interfaces and in mixins

A member is read by other rules in a mixin than in an interface, which know fewer qualifiers.  Where
both rules read a member, they read the same text, and the two members differ in three ways only.

* `Member.InMixin`: the member of a mixin, by that of an interface.
* `ReadInInterface`, `ReadInMixin`: how a member was read behind its extended attributes.
* `inMixin_of_reads`: **two readings of one text**, case by case.
* `inMixin_of_members`: **members that are read in an interface and in a mixin.**
-/

namespace IdlDocs.Idl

open Text Text.Parser

variable {α : Type} {n : Nat} {s x y r r' : List Char} {w : String} {m m' op op' : Member}
  {as : List String}

/-! ## The two forms of a member -/

/-- The words that qualify an operation of an interface, and what they count as.  The older word
`legacycaller` counts as nothing, so that a word in front of it may count. -/
def qualifierWords : List (String × Qualifier) :=
  [("static", .static), ("getter", .getter), ("setter", .setter), ("deleter", .deleter),
    ("legacycaller", .plain), ("legacycaller", .stringifier)]

/-- The member that is read in a mixin where the first one is read in an interface. -/
inductive Member.InMixin : Member → Member → Prop
  | same {m : Member} (hq : m.qualifier = .plain) (hk : m.kind ≠ .constructor) : InMixin m m
  /-- That a member is a stringifier is lost. -/
  | stringifier {m : Member} (hq : m.qualifier = .stringifier) :
      InMixin m { m with qualifier := .plain }
  /-- A constructor is an operation without a name, as a mixin has none. -/
  | constructor (attributes : List String) (arguments : List Argument) :
      InMixin { kind := .constructor, attributes, arguments }
        { kind := .operation, type := some (.named "constructor"), attributes, arguments }
  /-- A word that qualifies an operation without a name is its type, and its type is its name. -/
  | qualified {w : String} {q : Qualifier} (hw : (w, q) ∈ qualifierWords) (name : String)
      (attributes : List String) (arguments : List Argument) :
      InMixin
        { kind := .operation, type := some (.named name), qualifier := q, attributes, arguments }
        { kind := .operation, name := some name, type := some (.named w), attributes, arguments }

/-- **The two members are the same**, if that of the interface has no qualifier and is no
constructor, and neither of them has lost its name. -/
theorem Member.InMixin.eq_iff (h : m.InMixin m') :
    m' = m ↔ m.qualifier = .plain ∧ m.kind ≠ .constructor ∧ m'.name = m.name := by
  cases h with
  | same hq hk => exact ⟨fun _ => ⟨hq, hk, rfl⟩, fun _ => rfl⟩
  | stringifier hq =>
    constructor
    · intro he
      have hplain := congrArg Member.qualifier he
      rw [hq] at hplain
      cases hplain
    · rintro ⟨hplain, -⟩
      rw [hq] at hplain
      cases hplain
  | constructor attributes arguments => exact ⟨nofun, fun h => absurd rfl h.2.1⟩
  | qualified hw name attributes arguments =>
    exact ⟨nofun, fun h => absurd h.2.2 (Option.some_ne_none name)⟩

/-! ## What was read -/

theorem exists_attributesOf (inner : Level) (s : List Char) :
    ∃ as x, attributesOf inner s = some (as, x) := by
  unfold attributesOf
  rw [orElse_apply]
  cases inner.attributes s with
  | none => exact ⟨[], s, rfl⟩
  | some a => exact ⟨a.1, a.2, rfl⟩

theorem qualifier_eq_some {choices : List (String × Qualifier)} {q : Option Qualifier}
    (hc : ∀ c ∈ choices, IsWord c.1) (h : qualifier choices s = some (q, r)) :
    (∃ c ∈ choices, (tokens s).head? = some (.word c.1) ∧ q = some c.2 ∧ r = after s) ∨
      ((∀ c ∈ choices, (tokens s).head? ≠ some (.word c.1)) ∧ q = none ∧ r = s) := by
  rcases orElse_eq_some h with h | ⟨hnone, h⟩
  · obtain ⟨q', hfirst, rfl⟩ := map_eq_some h
    obtain ⟨c, hmem, hread⟩ := firstOf_eq_some hfirst
    obtain ⟨u, y, hkeyword, hread⟩ := bind_eq_some hread
    cases hread
    obtain ⟨hhead, hafter⟩ := (keyword_eq_some_iff (hc c hmem)).1 hkeyword
    exact .inl ⟨c, hmem, hhead, rfl, hafter⟩
  · cases h
    refine .inr ⟨fun c hmem hhead => ?_, rfl, rfl⟩
    rw [map_apply, Option.map_eq_none_iff] at hnone
    have hrefused := firstOf_eq_none_iff.1 hnone c hmem
    have hkeyword : keyword c.1 s = some ((), after s) :=
      (keyword_eq_some_iff (hc c hmem)).2 ⟨hhead, rfl⟩
    have hread : (do keyword c.1; return c.2 : Parser Qualifier) s = some (c.2, after s) := by
      rw [bind_of_some hkeyword]
      rfl
    exact absurd (hread.symm.trans hrefused) nofun

def Stringified (x y : List Char) : Prop :=
  ((tokens x).head? = some (.word "stringifier") ∧ y = after x) ∨
    ((tokens x).head? ≠ some (.word "stringifier") ∧ y = x)

theorem Stringified.eq_after (h : Stringified x y)
    (hx : (tokens x).head? = some (.word "stringifier")) : y = after x :=
  (h.resolve_right fun hnot => hnot.1 hx).2

theorem Stringified.eq_self (h : Stringified x y)
    (hx : (tokens x).head? ≠ some (.word "stringifier")) : y = x :=
  (h.resolve_left fun hhead => hx hhead.1).2

theorem stringified_of_present {b : Bool}
    (h : present (keyword "stringifier") x = some (b, y)) : Stringified x y := by
  rcases orElse_eq_some h with h | ⟨hnone, h⟩
  · obtain ⟨u, hu, -⟩ := map_eq_some h
    exact .inl ((keyword_eq_some_iff (by decide)).1 hu)
  · cases h
    refine .inr ⟨fun hhead => ?_, rfl⟩
    have hkeyword : keyword "stringifier" x = some ((), after x) :=
      (keyword_eq_some_iff (by decide)).2 ⟨hhead, rfl⟩
    rw [map_apply, hkeyword] at hnone
    cases hnone

def attributeOf (attributes : List String) (qualifier : Qualifier)
    (a : Bool × String × TypeExpr) : Member :=
  { Member.ofAttribute a.2.1 a.2.2 with attributes, qualifier, readonly := a.1 }

def attributeQualifiers : List (String × Qualifier) :=
  [("stringifier", .stringifier), ("inherit", .inherit), ("static", .static)]

def firstQualifiers : List (String × Qualifier) :=
  [("stringifier", .stringifier), ("static", .static)]

def specialQualifiers : List (String × Qualifier) :=
  [("getter", .getter), ("setter", .setter), ("deleter", .deleter), ("legacycaller", .plain)]

def countedQualifier (first special : Option Qualifier) : Qualifier :=
  match special with
  | some .plain | none => first.getD .plain
  | some q => q

def declarationWords : List (List String) :=
  [["iterable"], ["async", "iterable"], ["maplike"], ["readonly", "maplike"], ["setlike"],
    ["readonly", "setlike"]]

/-- How a member of an interface was read behind its extended attributes `as`. -/
inductive ReadInInterface (n : Nat) (as : List String) (x : List Char) : Member → List Char → Prop
  | attr {q : Option Qualifier} {y : List Char} {a : Bool × String × TypeExpr}
      {r : List Char} (hq : qualifier attributeQualifiers x = some (q, y))
      (ha : attributeRest (levelAt (n + 1)) y = some (a, r)) :
      ReadInInterface n as x (attributeOf as (q.getD .plain) a) r
  | constructor {args : List Argument} {r : List Char}
      (hx : (tokens x).head? = some (.word "constructor"))
      (hargs : closedArguments (levelAt (n + 1)) (after x) = some (args, r)) :
      ReadInInterface n as x { kind := .constructor, attributes := as, arguments := args } r
  | operation {first special : Option Qualifier} {y z : List Char} {op : Member} {r : List Char}
      (hfirst : qualifier firstQualifiers x = some (first, y))
      (hspecial : qualifier specialQualifiers y = some (special, z))
      (hop : operationBody (levelAt (n + 1)) z = some (op, r)) :
      ReadInInterface n as x
        { op with attributes := as, qualifier := countedQualifier first special } r
  | declaration {ws : List String} {name : String} {r : List Char} (hws : ws ∈ declarationWords)
      (hx : ws.map .word ++ [Token.mark '<'] <+: tokens x) :
      ReadInInterface n as x (.ofDeclaration name) r
  | stringifier (hx : (tokens x).head? = some (.word "stringifier"))
      (hend : (tokens (after x)).head? = some (.mark ';')) :
      ReadInInterface n as x (.ofDeclaration "stringifier") (after (after x))

/-- How a member of a mixin was read behind its extended attributes `as`. -/
inductive ReadInMixin (n : Nat) (as : List String) (x : List Char) : Member → List Char → Prop
  | operation {y : List Char} {op : Member} {r : List Char} (hy : Stringified x y)
      (hop : operationBody (levelAt (n + 1)) y = some (op, r)) :
      ReadInMixin n as x { op with attributes := as } r
  | attr {y : List Char} {a : Bool × String × TypeExpr} {r : List Char} (hy : Stringified x y)
      (ha : attributeRest (levelAt (n + 1)) y = some (a, r)) :
      ReadInMixin n as x (attributeOf as .plain a) r
  | stringifier (hx : (tokens x).head? = some (.word "stringifier"))
      (hend : (tokens (after x)).head? = some (.mark ';')) :
      ReadInMixin n as x (.ofDeclaration "stringifier") (after (after x))

theorem declaration_eq_some {inner : Level} {name : String} {rest : Parser Unit}
    (hx : attributesOf inner s = some (as, x)) (h : declaration inner name rest s = some (m, r)) :
    ∃ u y, rest x = some (u, y) ∧ (tokens y).head? = some (.mark ';') ∧ r = after y ∧
      m = .ofDeclaration name := by
  unfold declaration at h
  rw [bind_of_some hx] at h
  obtain ⟨u, y, hrest, h⟩ := bind_eq_some h
  obtain ⟨v, z, hend, h⟩ := bind_eq_some h
  cases h
  obtain ⟨hhead, rfl⟩ := (mark_eq_some_iff (m := ";") rfl (by decide)).1 hend
  exact ⟨u, y, hrest, hhead, rfl, rfl⟩

/-- **How a member of a mixin was read.** -/
theorem readInMixin_of_member (hx : attributesOf (levelAt (n + 1)) s = some (as, x))
    (hconst : constantMember (levelAt (n + 1)) s = none)
    (h : mixinMember (levelAt (n + 1)) s = some (m, r)) : ReadInMixin n as x m r := by
  unfold mixinMember at h
  rw [orElse_apply, hconst, Option.none_or] at h
  rcases orElse_eq_some h with h | ⟨-, h⟩
  · unfold mixinOperation at h
    rw [bind_of_some hx] at h
    obtain ⟨b, y, hpresent, h⟩ := bind_eq_some h
    obtain ⟨op, z, hop, h⟩ := bind_eq_some h
    cases h
    exact .operation (stringified_of_present hpresent) hop
  rcases orElse_eq_some h with h | ⟨-, h⟩
  · unfold mixinAttribute at h
    rw [bind_of_some hx] at h
    obtain ⟨b, y, hpresent, h⟩ := bind_eq_some h
    obtain ⟨readonly, z, hreadonly, h⟩ := bind_eq_some h
    obtain ⟨a, z', hbody, h⟩ := bind_eq_some h
    cases h
    refine .attr (a := (readonly, a)) (stringified_of_present hpresent) ?_
    unfold attributeRest
    rw [bind_of_some hreadonly, bind_of_some hbody]
    rfl
  · obtain ⟨u, y, hkeyword, hend, rfl, rfl⟩ := declaration_eq_some hx h
    obtain ⟨hhead, rfl⟩ := (keyword_eq_some_iff (by decide)).1 hkeyword
    exact .stringifier hhead hend

/-- The parser reads one of the rows of words first, and an angle bracket behind it. -/
def OpensWith (rows : List (List String)) (p : Parser α) : Prop :=
  ∀ s r a, p s = some (a, r) → ∃ ws ∈ rows, ws.map .word ++ [Token.mark '<'] <+: tokens s

namespace OpensWith

variable {rows : List (List String)} {p : Parser α}

theorem angle {f : Unit → Parser α} : OpensWith [[]] (mark "<" >>= f) := by
  intro s r a h
  obtain ⟨u, y, hmark, -⟩ := bind_eq_some h
  refine ⟨[], List.mem_singleton.2 rfl, ?_⟩
  rw [mark_eq_some (m := "<") rfl (by decide) hmark]
  exact List.prefix_append [.mark '<'] (tokens y)

theorem bind {f : α → Parser β} (hp : OpensWith rows p) : OpensWith rows (p >>= f) := by
  intro s r b h
  obtain ⟨a, y, hread, -⟩ := bind_eq_some h
  exact hp _ _ _ hread

theorem keyword (hw : IsWord w) (hp : OpensWith rows p) :
    OpensWith (rows.map (w :: ·)) (Idl.keyword w >>= fun _ => p) := by
  intro s r a h
  obtain ⟨u, y, hkeyword, h⟩ := bind_eq_some h
  obtain ⟨ws, hws, hpre⟩ := hp _ _ _ h
  refine ⟨w :: ws, List.mem_map_of_mem hws, ?_⟩
  rw [keyword_eq_some hw hkeyword]
  exact (List.prefix_cons_inj _).2 hpre

theorem present (hw : IsWord w) (hp : OpensWith rows p) :
    OpensWith (rows ++ rows.map (w :: ·)) (Parser.present (Idl.keyword w) >>= fun _ => p) := by
  intro s r a h
  obtain ⟨b, y, hpresent, h⟩ := bind_eq_some h
  rcases orElse_eq_some hpresent with hpresent | ⟨-, hpresent⟩
  · obtain ⟨u, hkeyword, -⟩ := map_eq_some hpresent
    have hread : (Idl.keyword w >>= fun _ => p) s = some (a, r) := by rw [bind_of_some hkeyword, h]
    obtain ⟨ws, hws, hpre⟩ := hp.keyword hw _ _ _ hread
    exact ⟨ws, List.mem_append_right _ hws, hpre⟩
  · cases hpresent
    obtain ⟨ws, hws, hpre⟩ := hp _ _ _ h
    exact ⟨ws, List.mem_append_left _ hws, hpre⟩

end OpensWith

/-- A declaration has types in angle brackets behind its words, or it is a stringifier. -/
theorem declarationMember_eq_some (hx : attributesOf (levelAt (n + 1)) s = some (as, x))
    (h : declarationMember (levelAt (n + 1)) s = some (m, r)) : ReadInInterface n as x m r := by
  have hstep {name : String} {rest : Parser Unit} {rows : List (List String)} {q : Parser Member}
      (hrest : OpensWith rows rest) (hrows : ∀ ws ∈ rows, ws ∈ declarationWords)
      (h : (declaration (levelAt (n + 1)) name rest <|> q) s = some (m, r)) :
      ReadInInterface n as x m r ∨ q s = some (m, r) := by
    rcases orElse_eq_some h with h | ⟨-, h⟩
    · obtain ⟨u, y, hread, -, -, rfl⟩ := declaration_eq_some hx h
      obtain ⟨ws, hws, hpre⟩ := hrest _ _ _ hread
      exact .inl (.declaration (hrows ws hws) hpre)
    · exact .inr h
  have hone : OpensWith [[]] (oneType (levelAt (n + 1))) := .angle
  have htwo : OpensWith [[]] (twoTypes (levelAt (n + 1))) := .angle
  have hasync {types : Parser Unit} (htypes : OpensWith [[]] types) :
      OpensWith [["async", "iterable"]]
        (declarationMember.asynchronous (levelAt (n + 1)) types) := by
    have hrest : OpensWith [[]] (types >>= fun _ =>
        Parser.optional (argumentList (levelAt (n + 1))) >>= fun _ => pure ()) := htypes.bind
    have hiterable := hrest.keyword (w := "iterable") (by decide)
    exact hiterable.keyword (w := "async") (by decide)
  rcases hstep (hone.keyword (w := "iterable") (by decide)) (by decide) h with h | h
  · exact h
  rcases hstep (htwo.keyword (w := "iterable") (by decide)) (by decide) h with h | h
  · exact h
  rcases hstep (hasync hone) (by decide) h with h | h
  · exact h
  rcases hstep (hasync htwo) (by decide) h with h | h
  · exact h
  have hreadonly : IsWord "readonly" := by decide
  rcases hstep ((htwo.keyword (w := "maplike") (by decide)).present hreadonly) (by decide) h with
    h | h
  · exact h
  rcases hstep ((hone.keyword (w := "setlike") (by decide)).present hreadonly) (by decide) h with
    h | h
  · exact h
  obtain ⟨u, y, hkeyword, hend, rfl, rfl⟩ := declaration_eq_some hx h
  obtain ⟨hhead, rfl⟩ := (keyword_eq_some_iff (by decide)).1 hkeyword
  exact .stringifier hhead hend

/-- **How a member of an interface was read.** -/
theorem readInInterface_of_member (hs : (tokens s).head? ≠ some (.mark '/'))
    (hx : attributesOf (levelAt (n + 1)) s = some (as, x))
    (hconst : constantMember (levelAt (n + 1)) s = none)
    (h : interfaceMember (levelAt (n + 1)) s = some (m, r)) : ReadInInterface n as x m r := by
  unfold interfaceMember at h
  rw [orElse_apply, hconst, Option.none_or] at h
  rcases orElse_eq_some h with h | ⟨-, h⟩
  · unfold attributeMember at h
    rw [bind_of_some hx] at h
    obtain ⟨q, y, hq, h⟩ := bind_eq_some h
    obtain ⟨readonly, z, hreadonly, h⟩ := bind_eq_some h
    obtain ⟨a, z', hbody, h⟩ := bind_eq_some h
    cases h
    refine .attr (a := (readonly, a)) hq ?_
    unfold attributeRest
    rw [bind_of_some hreadonly, bind_of_some hbody]
    rfl
  rcases orElse_eq_some h with h | ⟨-, h⟩
  · unfold constructorMember at h
    rw [bind_of_some (docs_apply hs), bind_of_some hx] at h
    obtain ⟨u, y, hkeyword, h⟩ := bind_eq_some h
    obtain ⟨args, z, hargs, h⟩ := bind_eq_some h
    obtain ⟨v, z', hend, h⟩ := bind_eq_some h
    cases h
    obtain ⟨hhead, rfl⟩ := (keyword_eq_some_iff (by decide)).1 hkeyword
    refine .constructor hhead ?_
    unfold closedArguments
    rw [bind_of_some hargs, bind_of_some hend]
    rfl
  rcases orElse_eq_some h with h | ⟨-, h⟩
  · unfold operationMember at h
    rw [bind_of_some (docs_apply hs), bind_of_some hx] at h
    obtain ⟨first, y, hfirst, h⟩ := bind_eq_some h
    obtain ⟨special, z, hspecial, h⟩ := bind_eq_some h
    obtain ⟨op, z', hop, h⟩ := bind_eq_some h
    cases h
    exact .operation hfirst hspecial hop
  · exact declarationMember_eq_some hx h

/-! ## Two readings of one text -/

theorem operationBody_eq_none {c : Char} (h : (tokens s).head? = some (.mark c)) (hc : c ≠ '(') :
    operationBody (levelAt (n + 1)) s = none := by
  rw [operationBody_eq]
  exact bind_eq_none (returnType_eq_none h hc) _

theorem exists_operationOf {inner : Level} (h : operationBody inner s = some (op, r)) :
    ∃ t c, op = operationOf t c := by
  rw [operationBody_eq] at h
  obtain ⟨t, y, -, h⟩ := bind_eq_some h
  obtain ⟨c, -, rfl⟩ := map_eq_some h
  exact ⟨t, c, rfl⟩

/-- A word in front of an operation without a name is its type, and the type is its name. -/
theorem operationBody_of_word (h : (tokens x).head? = some (.word w)) (hw : w ∉ returnWords)
    (hname : nameOf? w = some w) (hop : operationBody (levelAt (n + 1)) (after x) = some (op, r))
    (hop' : operationBody (levelAt (n + 1)) x = some (op', r')) :
    ∃ name args, op = operationOf (.named name) (none, args) ∧
      op' = operationOf (.named w) (some name, args) ∧ r' = r := by
  rcases operationBody_of_head h hw hname hop' with hmark | ⟨⟨o, args⟩, hcall, rfl⟩
  · rw [operationBody_eq_none hmark (by decide)] at hop
    cases hop
  · obtain ⟨name, ho, rfl, rfl⟩ := operationBody_of_callRest hcall hop
    obtain rfl : o = some name := ho
    exact ⟨name, args, rfl, rfl, rfl⟩

/-- Two words cannot both stand in front of an operation without a name, where the first of them
is read as its type. -/
theorem not_operationBody_of_words {v : String} (h : (tokens x).head? = some (.word w))
    (hw : w ∉ returnWords) (hname : nameOf? w = some w)
    (hv : (tokens (after x)).head? = some (.word v))
    (hop' : operationBody (levelAt (n + 1)) x = some (op', r')) :
    operationBody (levelAt (n + 1)) (after (after x)) = none := by
  rcases operationBody_of_head h hw hname hop' with hmark | ⟨c, hcall, -⟩
  · rw [hv] at hmark
    cases hmark
  rcases callRest_eq_some hcall with ⟨-, hopen, -⟩ | ⟨_, _, -, -, -, hafter, hargs⟩
  · rw [hv] at hopen
    cases hopen
  have hrest : callRest (levelAt (n + 1)) (after (after x)) = some ((none, c.2), r') := by
    rw [callRest_of_open hafter, hargs]
    rfl
  cases hop : operationBody (levelAt (n + 1)) (after (after x)) with
  | none => rfl
  | some z =>
    obtain ⟨name, hnone, -⟩ := operationBody_of_callRest hrest hop
    cases hnone

/-- The words that stand in front of operations are no keywords of the types. -/
theorem qualifiers_not_types {c : String × Qualifier}
    (hc : c ∈ firstQualifiers ++ specialQualifiers ++ attributeQualifiers) :
    c.1 ∉ returnWords ∧ nameOf? c.1 = some c.1 := by
  have hall : ∀ c ∈ firstQualifiers ++ specialQualifiers ++ attributeQualifiers,
      c.1 ∉ returnWords ∧ nameOf? c.1 = some c.1 := by decide
  exact hall c hc

theorem mem_firstQualifiers {c : String × Qualifier} (h : c ∈ firstQualifiers) :
    c = ("stringifier", .stringifier) ∨ c = ("static", .static) := by
  simpa [firstQualifiers] using h

/-- **An operation of an interface and one of a mixin.** -/
theorem inMixin_of_operations {first special : Option Qualifier} {z z' : List Char}
    (hfirst : qualifier firstQualifiers x = some (first, y))
    (hspecial : qualifier specialQualifiers y = some (special, z))
    (hop : operationBody (levelAt (n + 1)) z = some (op, r)) (hz' : Stringified x z')
    (hop' : operationBody (levelAt (n + 1)) z' = some (op', r')) :
    r' = r ∧ Member.InMixin
      { op with attributes := as, qualifier := countedQualifier first special }
      { op' with attributes := as } := by
  -- A special word, behind a first qualifier of which the mixin has taken note, or behind none.
  have hcase {c : String × Qualifier} (hc : c ∈ firstQualifiers ++ specialQualifiers)
      {q : Qualifier} (hq : (c.1, q) ∈ qualifierWords) {y : List Char}
      (hhead : (tokens y).head? = some (.word c.1))
      (hop : operationBody (levelAt (n + 1)) (after y) = some (op, r))
      (hop' : operationBody (levelAt (n + 1)) y = some (op', r')) :
      r' = r ∧ Member.InMixin { op with attributes := as, qualifier := q }
        { op' with attributes := as } := by
    obtain ⟨hw, hname⟩ := qualifiers_not_types (List.mem_append_left _ hc)
    obtain ⟨name, args, rfl, rfl, rfl⟩ := operationBody_of_word hhead hw hname hop hop'
    exact ⟨rfl, .qualified hq name as args⟩
  have hspecials : ∀ c ∈ specialQualifiers, (c.1, countedQualifier none (some c.2)) ∈
      qualifierWords ∧
      (c.1, countedQualifier (some .stringifier) (some c.2)) ∈ qualifierWords := by decide
  rcases qualifier_eq_some (by decide) hspecial with ⟨c, hc, hhead, rfl, rfl⟩ | ⟨-, rfl, rfl⟩
  · have hmem : c ∈ firstQualifiers ++ specialQualifiers := List.mem_append_right _ hc
    rcases qualifier_eq_some (by decide) hfirst with ⟨d, hd, hfront, rfl, rfl⟩ | ⟨hnone, rfl, rfl⟩
    · rcases mem_firstQualifiers hd with rfl | rfl
      · obtain rfl := hz'.eq_after hfront
        exact hcase hmem (hspecials c hc).2 hhead hop hop'
      · obtain rfl := hz'.eq_self (by rw [hfront]; decide)
        rw [not_operationBody_of_words hfront (by decide) (by decide) hhead hop'] at hop
        cases hop
    · obtain rfl := hz'.eq_self (hnone ("stringifier", .stringifier) (by decide))
      exact hcase hmem (hspecials c hc).1 hhead hop hop'
  · obtain ⟨t, args, rfl⟩ := exists_operationOf hop
    have hsame (h : z' = z) : op' = operationOf t args ∧ r' = r := by
      rw [h, hop] at hop'
      cases hop'
      exact ⟨rfl, rfl⟩
    rcases qualifier_eq_some (by decide) hfirst with ⟨d, hd, hfront, rfl, rfl⟩ | ⟨hnone, rfl, rfl⟩
    · rcases mem_firstQualifiers hd with rfl | rfl
      · obtain ⟨rfl, rfl⟩ := hsame (hz'.eq_after hfront)
        exact ⟨rfl, .stringifier rfl⟩
      · obtain rfl := hz'.eq_self (by rw [hfront]; decide)
        exact hcase (List.mem_append_left _ hd) (by decide) hfront hop hop'
    · obtain ⟨rfl, rfl⟩ := hsame (hz'.eq_self (hnone ("stringifier", .stringifier) (by decide)))
      exact ⟨rfl, .same rfl nofun⟩

/-- An attribute starts with one of two words, and none of them qualifies anything. -/
theorem head?_of_attributeRest {inner : Level} {a : Bool × String × TypeExpr}
    (h : attributeRest inner s = some (a, r)) :
    ∃ v ∈ ["readonly", "attribute"], (tokens s).head? = some (.word v) := by
  rcases attributeRest_eq_some h with ⟨hhead, -⟩ | ⟨hhead, -⟩
  · exact ⟨_, by simp, hhead⟩
  · exact ⟨_, by simp, hhead⟩

theorem attributeRest_ne {inner : Level} {a : Bool × String × TypeExpr} {t : Token}
    (ht : t ∉ ["readonly", "attribute"].map Token.word) (h : (tokens s).head? = some t) :
    attributeRest inner s ≠ some (a, r) := by
  intro hrest
  obtain ⟨v, hv, hhead⟩ := head?_of_attributeRest hrest
  obtain rfl : t = .word v := Option.some.inj (h.symm.trans hhead)
  exact ht (List.mem_map_of_mem hv)

/-- **An attribute of an interface and one of a mixin.** -/
theorem inMixin_of_attributes {q : Option Qualifier} {a a' : Bool × String × TypeExpr}
    {y' : List Char} (hq : qualifier attributeQualifiers x = some (q, y))
    (ha : attributeRest (levelAt (n + 1)) y = some (a, r)) (hy' : Stringified x y')
    (ha' : attributeRest (levelAt (n + 1)) y' = some (a', r')) :
    r' = r ∧ Member.InMixin (attributeOf as (q.getD .plain) a) (attributeOf as .plain a') := by
  have hsame (h : y' = y) : a' = a ∧ r' = r := by
    rw [h, ha] at ha'
    cases ha'
    exact ⟨rfl, rfl⟩
  rcases qualifier_eq_some (by decide) hq with ⟨c, hc, hhead, rfl, rfl⟩ | ⟨hnone, rfl, rfl⟩
  · simp only [attributeQualifiers, List.mem_cons, List.not_mem_nil, or_false] at hc
    rcases hc with rfl | rfl | rfl
    · obtain ⟨rfl, rfl⟩ := hsame (hy'.eq_after hhead)
      exact ⟨rfl, .stringifier rfl⟩
    · obtain rfl := hy'.eq_self (by rw [hhead]; decide)
      exact absurd ha' (attributeRest_ne (by decide) hhead)
    · obtain rfl := hy'.eq_self (by rw [hhead]; decide)
      exact absurd ha' (attributeRest_ne (by decide) hhead)
  · obtain ⟨rfl, rfl⟩ := hsame (hy'.eq_self (hnone ("stringifier", .stringifier) (by decide)))
    exact ⟨rfl, .same rfl nofun⟩

theorem not_attribute_and_operation {q : Option Qualifier} {a : Bool × String × TypeExpr}
    {y' : List Char} (hq : qualifier attributeQualifiers x = some (q, y))
    (ha : attributeRest (levelAt (n + 1)) y = some (a, r)) (hy' : Stringified x y') :
    operationBody (levelAt (n + 1)) y' ≠ some (op', r') := by
  intro hop'
  have hne (h : y' = y) : False := by
    rw [← h, attributeRest_of_operationBody hop'] at ha
    cases ha
  rcases qualifier_eq_some (by decide) hq with ⟨c, hc, hhead, rfl, rfl⟩ | ⟨hnone, rfl, rfl⟩
  · by_cases hx : (tokens x).head? = some (.word "stringifier")
    · exact hne (hy'.eq_after hx)
    · obtain rfl := hy'.eq_self hx
      obtain ⟨hw, hname⟩ := qualifiers_not_types (List.mem_append_right _ hc)
      rcases operationBody_of_head hhead hw hname hop' with hmark | ⟨z, hcall, -⟩
      · exact attributeRest_ne (by decide) hmark ha
      · rw [attributeRest_of_callRest hcall] at ha
        cases ha
  · exact hne (hy'.eq_self (hnone ("stringifier", .stringifier) (by decide)))

theorem not_operation_and_attribute {first special : Option Qualifier}
    {a : Bool × String × TypeExpr} {z y' : List Char}
    (hfirst : qualifier firstQualifiers x = some (first, y))
    (hspecial : qualifier specialQualifiers y = some (special, z))
    (hop : operationBody (levelAt (n + 1)) z = some (op, r)) (hy' : Stringified x y') :
    attributeRest (levelAt (n + 1)) y' ≠ some (a, r') := by
  intro ha
  have hne (h : y' = y) : False := by
    subst h
    rcases qualifier_eq_some (by decide) hspecial with ⟨c, hc, hhead, -, -⟩ | ⟨-, -, rfl⟩
    · have hother : ∀ c ∈ specialQualifiers,
          Token.word c.1 ∉ ["readonly", "attribute"].map Token.word := by decide
      exact attributeRest_ne (hother c hc) hhead ha
    · rw [attributeRest_of_operationBody hop] at ha
      cases ha
  rcases qualifier_eq_some (by decide) hfirst with ⟨c, hc, hhead, rfl, rfl⟩ | ⟨hnone, rfl, rfl⟩
  · rcases mem_firstQualifiers hc with rfl | rfl
    · exact hne (hy'.eq_after hhead)
    · obtain rfl := hy'.eq_self (by rw [hhead]; decide)
      exact attributeRest_ne (by decide) hhead ha
  · exact hne (hy'.eq_self (hnone ("stringifier", .stringifier) (by decide)))

theorem exists_word_of_declaration {ws : List String} (hws : ws ∈ declarationWords)
    (hx : ws.map .word ++ [Token.mark '<'] <+: tokens x) :
    ∃ v ∈ ["iterable", "async", "maplike", "readonly", "setlike"],
      (tokens x).head? = some (.word v) ∧
      ((tokens (after x)).head? = some (.mark '<') ∨
        ∃ u ∈ ["iterable", "maplike", "setlike"], (tokens (after x)).head? = some (.word u) ∧
          (tokens (after (after x))).head? = some (.mark '<')) := by
  obtain ⟨us, hus⟩ := hx
  rw [tokens_after, tokens_after, tokens_after, ← hus]
  simp only [declarationWords, List.mem_cons, List.not_mem_nil, or_false] at hws
  rcases hws with rfl | rfl | rfl | rfl | rfl | rfl <;> simp

theorem not_readInMixin_of_declaration {ws : List String} (hws : ws ∈ declarationWords)
    (hx : ws.map .word ++ [Token.mark '<'] <+: tokens x) : ¬ ReadInMixin n as x m' r' := by
  intro h'
  obtain ⟨v, hv, hhead, hnext⟩ := exists_word_of_declaration hws hx
  have hfirst : ∀ v ∈ ["iterable", "async", "maplike", "readonly", "setlike"],
      v ≠ "stringifier" ∧ v ≠ "attribute" ∧ v ∉ returnWords ∧ nameOf? v = some v := by decide
  obtain ⟨hstringifier, hattribute, hw, hname⟩ := hfirst v hv
  have hself {y : List Char} (hy : Stringified x y) : y = x :=
    hy.eq_self (by rw [hhead]; simpa using hstringifier)
  cases h' with
  | operation hy hop =>
    obtain rfl := hself hy
    rcases operationBody_of_head hhead hw hname hop with hmark | ⟨z, hcall, -⟩
    · rcases hnext with hopen | ⟨u, -, hu, -⟩
      · exact absurd (hopen.symm.trans hmark) (by decide)
      · exact absurd (hu.symm.trans hmark) nofun
    · rcases callRest_eq_some hcall with ⟨-, hparen, -⟩ | ⟨w, name, -, hword, -, hparen, -⟩
      · rcases hnext with hopen | ⟨u, -, hu, -⟩
        · exact absurd (hopen.symm.trans hparen) (by decide)
        · exact absurd (hu.symm.trans hparen) nofun
      · rcases hnext with hopen | ⟨u, -, -, hopen⟩
        · exact absurd (hopen.symm.trans hword) nofun
        · exact absurd (hopen.symm.trans hparen) (by decide)
  | attr hy ha =>
    obtain rfl := hself hy
    rcases attributeRest_eq_some ha with ⟨-, hbody⟩ | ⟨hword, -⟩
    · have hword := head?_of_attributeBody hbody
      rcases hnext with hopen | ⟨u, hu, huhead, -⟩
      · exact absurd (hopen.symm.trans hword) nofun
      · obtain rfl : u = "attribute" := Token.word.inj (Option.some.inj (huhead.symm.trans hword))
        exact absurd hu (by decide)
    · exact hattribute (Token.word.inj (Option.some.inj (hhead.symm.trans hword)))
  | stringifier hx hend =>
    exact hstringifier (Token.word.inj (Option.some.inj (hhead.symm.trans hx)))

theorem not_attribute_of_stringifier {q : Option Qualifier} {a : Bool × String × TypeExpr}
    (hq : qualifier attributeQualifiers x = some (q, y))
    (hx : (tokens x).head? = some (.word "stringifier"))
    (hend : (tokens (after x)).head? = some (.mark ';')) :
    attributeRest (levelAt (n + 1)) y ≠ some (a, r) := by
  rcases qualifier_eq_some (by decide) hq with ⟨c, hc, hhead, rfl, rfl⟩ | ⟨hnone, -, -⟩
  · exact attributeRest_ne (by decide) hend
  · exact absurd hx (hnone ("stringifier", .stringifier) (by decide))

theorem not_operation_of_stringifier {first special : Option Qualifier} {z : List Char}
    (hfirst : qualifier firstQualifiers x = some (first, y))
    (hspecial : qualifier specialQualifiers y = some (special, z))
    (hx : (tokens x).head? = some (.word "stringifier"))
    (hend : (tokens (after x)).head? = some (.mark ';')) :
    operationBody (levelAt (n + 1)) z ≠ some (op, r) := by
  rcases qualifier_eq_some (by decide) hfirst with ⟨c, hc, hhead, rfl, rfl⟩ | ⟨hnone, -, -⟩
  · have hmark : ∀ c ∈ specialQualifiers, (tokens (after x)).head? ≠ some (.word c.1) := by
      rw [hend]
      exact fun _ _ => nofun
    rcases qualifier_eq_some (by decide) hspecial with ⟨d, hd, hhead, -, -⟩ | ⟨-, -, rfl⟩
    · exact absurd hhead (hmark d hd)
    · rw [operationBody_eq_none hend (by decide)]
      exact nofun
  · exact absurd hx (hnone ("stringifier", .stringifier) (by decide))

/-- **A constructor of an interface** is an operation of a mixin without a name. -/
theorem inMixin_of_constructor {args : List Argument}
    (hx : (tokens x).head? = some (.word "constructor"))
    (hargs : closedArguments (levelAt (n + 1)) (after x) = some (args, r))
    (h' : ReadInMixin n as x m' r') :
    r' = r ∧ Member.InMixin { kind := .constructor, attributes := as, arguments := args } m' := by
  have hopen := head?_of_closedArguments hargs
  have hself {y : List Char} (hy : Stringified x y) : y = x := hy.eq_self (by rw [hx]; decide)
  cases h' with
  | operation hy hop =>
    obtain rfl := hself hy
    rcases operationBody_of_head hx (by decide) (by decide) hop with hmark | ⟨c, hcall, rfl⟩
    · exact absurd (hopen.symm.trans hmark) (by decide)
    · rw [callRest_of_open hopen, hargs] at hcall
      cases hcall
      exact ⟨rfl, .constructor as _⟩
  | attr hy ha =>
    obtain rfl := hself hy
    exact absurd ha (attributeRest_ne (by decide) hx)
  | stringifier hstringifier => exact absurd (hx.symm.trans hstringifier) (by decide)

/-- **The word alone** is read as it is, in both. -/
theorem inMixin_of_stringifier (hx : (tokens x).head? = some (.word "stringifier"))
    (hend : (tokens (after x)).head? = some (.mark ';')) (h' : ReadInMixin n as x m' r') :
    r' = after (after x) ∧ Member.InMixin (.ofDeclaration "stringifier") m' := by
  cases h' with
  | operation hy hop =>
    obtain rfl := hy.eq_after hx
    rw [operationBody_eq_none hend (by decide)] at hop
    cases hop
  | attr hy ha =>
    obtain rfl := hy.eq_after hx
    exact absurd ha (attributeRest_ne (by decide) hend)
  | stringifier _ _ => exact ⟨rfl, .same rfl nofun⟩

/-- **Two readings of one text** behind the same extended attributes, case by case. -/
theorem inMixin_of_reads (h : ReadInInterface n as x m r) (h' : ReadInMixin n as x m' r') :
    r' = r ∧ m.InMixin m' := by
  cases h with
  | attr hq ha =>
    cases h' with
    | operation hy hop => exact absurd hop (not_attribute_and_operation hq ha hy)
    | attr hy ha' => exact inMixin_of_attributes hq ha hy ha'
    | stringifier hx hend => exact absurd ha (not_attribute_of_stringifier hq hx hend)
  | constructor hx hargs => exact inMixin_of_constructor hx hargs h'
  | operation hfirst hspecial hop =>
    cases h' with
    | operation hy hop' => exact inMixin_of_operations hfirst hspecial hop hy hop'
    | attr hy ha => exact absurd ha (not_operation_and_attribute hfirst hspecial hop hy)
    | stringifier hx hend =>
      exact absurd hop (not_operation_of_stringifier hfirst hspecial hx hend)
  | declaration hws hx => exact absurd h' (not_readInMixin_of_declaration hws hx)
  | stringifier hx hend => exact inMixin_of_stringifier hx hend h'

/-! ## Members -/

theorem exists_ofConstant {inner : Level} (h : constantMember inner s = some (m, r)) :
    ∃ as name t, m = { Member.ofConstant name t with attributes := as } := by
  obtain ⟨as, x, -, h⟩ := bind_eq_some h
  obtain ⟨u, x, -, h⟩ := bind_eq_some h
  obtain ⟨t, x, -, h⟩ := bind_eq_some h
  obtain ⟨name, x, -, h⟩ := bind_eq_some h
  obtain ⟨v, x, -, h⟩ := bind_eq_some h
  obtain ⟨c, x, -, h⟩ := bind_eq_some h
  obtain ⟨d, x, -, h⟩ := bind_eq_some h
  cases h
  exact ⟨as, name, t, rfl⟩

/-- A mark that opens no type and no extended attributes starts no member of a mixin. -/
theorem mixinMember_eq_none {c : Char} (h : (tokens s).head? = some (.mark c))
    (hc : c ≠ '(' ∧ c ≠ '[') : mixinMember (levelAt (n + 1)) s = none := by
  have hword (w : String) : (tokens s).head? ≠ some (.word w) := by
    rw [h]
    exact nofun
  have hx : attributesOf (levelAt (n + 1)) s = some ([], s) :=
    attributesOf_apply (n + 1) (by simp [h, hc.2])
  cases hm : mixinMember (levelAt (n + 1)) s with
  | none => rfl
  | some z =>
    obtain ⟨m, r⟩ := z
    have hconst : constantMember (levelAt (n + 1)) s = none := by
      unfold constantMember
      rw [bind_of_some hx]
      exact keyword_bind_eq_none (by decide) (hword "const")
    cases readInMixin_of_member hx hconst hm with
    | operation hy hop =>
      obtain rfl := hy.eq_self (hword "stringifier")
      rw [operationBody_eq_none h hc.1] at hop
      cases hop
    | attr hy ha =>
      obtain rfl := hy.eq_self (hword "stringifier")
      exact absurd ha (attributeRest_ne (by simp) h)
    | stringifier hx => exact absurd hx (hword "stringifier")

/-- **A member that is read in an interface and in a mixin.** -/
theorem inMixin_of_members (h : interfaceMember (levelAt (n + 1)) s = some (m, r))
    (h' : mixinMember (levelAt (n + 1)) s = some (m', r')) : r' = r ∧ m.InMixin m' := by
  have hs : (tokens s).head? ≠ some (.mark '/') := by
    intro hslash
    rw [mixinMember_eq_none hslash (by decide)] at h'
    cases h'
  obtain ⟨as, x, hx⟩ := exists_attributesOf (levelAt (n + 1)) s
  cases hconst : constantMember (levelAt (n + 1)) s with
  | none =>
    exact inMixin_of_reads (readInInterface_of_member hs hx hconst h)
      (readInMixin_of_member hx hconst h')
  | some z =>
    unfold interfaceMember at h
    unfold mixinMember at h'
    rw [orElse_apply, hconst, Option.some_or] at h h'
    cases h
    cases h'
    obtain ⟨as, name, t, rfl⟩ := exists_ofConstant hconst
    exact ⟨rfl, .same rfl nofun⟩

end IdlDocs.Idl
