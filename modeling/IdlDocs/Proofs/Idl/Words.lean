import IdlDocs.Proofs.Idl.Types.Sources
import IdlDocs.Proofs.Text.Lines

/-!
# The names in definitions

All that a source text names, its types included, is named in one line.

* `TypeExpr.words`: the names and the tags in a type.
* `Fits.isInline_kept`: those of the types that are read.
* `inline_interfaceMember`, `inline_dictionaryField`: the types of members and fields.
* `inline_of_parse`: **the definitions of a source text are named in one line.**
-/

namespace IdlDocs.Idl

open Text Text.Parser

namespace TypeExpr

mutual

/-- The names and the tags in a type. -/
def words : TypeExpr → List String
  | named name => [name]
  | union members => wordsOf members
  | generic kind args => kind.tag :: wordsOf args
  | nullable inner => inner.words

def wordsOf : List TypeExpr → List String
  | [] => []
  | t :: ts => t.words ++ wordsOf ts

end

theorem mem_wordsOf {ts : List TypeExpr} {n : String} : n ∈ wordsOf ts ↔ ∃ t ∈ ts, n ∈ t.words := by
  induction ts with
  | nil => simp [wordsOf]
  | cons t ts ih => simp [wordsOf, ih]

def IsInline (t : TypeExpr) : Prop := ∀ n ∈ t.words, IsUnbroken n

theorem isInline_named {name : String} : (named name).IsInline ↔ IsUnbroken name := by
  unfold IsInline
  rw [words, List.forall_mem_singleton]

theorem isInline_nullable {t : TypeExpr} : (nullable t).IsInline ↔ t.IsInline := by
  unfold IsInline
  rw [words]

theorem isInline_union {ts : List TypeExpr} : (union ts).IsInline ↔ ∀ t ∈ ts, t.IsInline := by
  unfold IsInline
  rw [words]
  exact ⟨fun h t ht n hn => h n (mem_wordsOf.2 ⟨t, ht, hn⟩), fun h n hn => by
    obtain ⟨t, ht, hnt⟩ := mem_wordsOf.1 hn
    exact h t ht n hnt⟩

theorem isInline_generic {kind : GenericKind} {ts : List TypeExpr} :
    (generic kind ts).IsInline ↔ IsUnbroken kind.tag ∧ ∀ t ∈ ts, t.IsInline := by
  rw [← isInline_union]
  unfold IsInline
  rw [words, words, List.forall_mem_cons]

theorem isInline_kept_withMark (t : TypeExpr) (b : Bool) :
    (t.withMark b).kept.IsInline ↔ t.kept.IsInline := by
  cases b with
  | false => rfl
  | true =>
    change (nullable t).kept.IsInline ↔ t.kept.IsInline
    rw [kept]
    split
    · rfl
    · exact isInline_nullable

end TypeExpr

/-! ## Types that are read -/

theorem isUnbroken_of_isWord {n : String} (h : IsWord n) : IsUnbroken n := fun hmem => by
  have hchar := List.all_eq_true.1 h.2 _ hmem
  exact absurd hchar (by decide)

theorem isUnbroken_of_isSpelled {n : String} (h : IsSpelled n) : IsUnbroken n := by
  rcases h with h | h
  · have hall : ∀ n ∈ basicTypes, IsUnbroken n := by decide +kernel
    exact hall n h
  · exact isUnbroken_of_isWord h.1

theorem isUnbroken_of_isIdentifier {n : String} (h : IsIdentifier n) : IsUnbroken n := by
  obtain ⟨c, cs, rfl, hc, hcs⟩ := h
  unfold IsUnbroken
  rw [String.toList_ofList, List.mem_cons, not_or]
  constructor
  · rintro rfl
    exact absurd hc (by decide)
  · exact fun hmem => absurd (hcs _ hmem) (by decide)

/-- **What is kept of a written type is named in one line.** -/
theorem Fits.isInline_kept {p : Place} {t : TypeExpr} (h : Fits p t) : t.kept.IsInline := by
  induction h with
  | @name p n hn b hb =>
    rw [TypeExpr.isInline_kept_withMark, TypeExpr.kept, TypeExpr.isInline_named]
    exact isUnbroken_of_isSpelled (isSpelled_keptName hn).1
  | @promise p t _ ih =>
    rw [TypeExpr.kept_generic, TypeExpr.isInline_generic, List.forall_mem_singleton]
    exact ⟨by decide +kernel, ih⟩
  | @list p k t hk _ b ih =>
    rw [TypeExpr.isInline_kept_withMark, TypeExpr.kept_generic, TypeExpr.isInline_generic,
      List.forall_mem_singleton]
    refine ⟨?_, ih⟩
    rcases hk with rfl | rfl <;> decide +kernel
  | @record p k v _ _ b ihk ihv =>
    rw [TypeExpr.isInline_kept_withMark, TypeExpr.kept_record, TypeExpr.isInline_generic,
      List.forall_mem_cons, List.forall_mem_singleton]
    exact ⟨by decide +kernel, ihk, ihv⟩
  | @union p ts _ _ b ih =>
    rw [TypeExpr.isInline_kept_withMark, TypeExpr.kept_union, TypeExpr.isInline_union]
    exact List.forall_mem_map.2 ih

variable {n : Nat}

theorem yields_place (p : Place) : Yields TypeExpr.IsInline (p.parser (levelAt n)) := by
  intro s r t h
  obtain ⟨e, he⟩ := exists_origin h
  rw [← he.kept]
  exact he.fits.isInline_kept

theorem yields_attributedType : Yields TypeExpr.IsInline (attributedType (levelAt n)) :=
  .skip fun _ => yields_place .type

theorem yields_constantType : Yields TypeExpr.IsInline constantType := by
  have hword : ∀ ws : List String, (∀ w ∈ ws, IsUnbroken w) →
      Yields TypeExpr.IsInline (firstOf (ws.map fun w => do keyword w; return .named w)) := by
    intro ws hws
    induction ws with
    | nil => exact fun _ _ _ h => nomatch h
    | cons w ws ih =>
      exact .orElse (.skip fun _ => .pure (TypeExpr.isInline_named.2 (hws w List.mem_cons_self)))
        (ih fun v hv => hws v (List.mem_cons_of_mem w hv))
  have hnumber : ∀ {p : Parser TypeExpr},
      (∀ {s r t}, p s = some (t, r) → ∃ n ∈ basicTypes, t = .named n) →
      Yields TypeExpr.IsInline p := by
    intro p hp s r t h
    obtain ⟨n, hn, rfl⟩ := hp h
    exact TypeExpr.isInline_named.2 (isUnbroken_of_isSpelled (.inl hn))
  have hname : Yields TypeExpr.IsInline namedType :=
    .map fun s r a h =>
      TypeExpr.isInline_named.2 (isUnbroken_of_isIdentifier (yields_identifier s r a h))
  refine .bind (.orElse (hnumber fun h => ?_) (.orElse (hnumber fun h => ?_)
    (.orElse (hword _ (by decide +kernel)) hname))) fun t ht => .skip fun _ => .pure ht
  · obtain ⟨n, hn, ht, -⟩ := number_eq_some (.inl h)
    exact ⟨n, hn, ht⟩
  · obtain ⟨n, hn, ht, -⟩ := number_eq_some (.inr h)
    exact ⟨n, hn, ht⟩

/-! ## Members and fields -/

def Member.IsInline (m : Member) : Prop := ∀ t, m.type = some t → t.IsInline

theorem isInline_of_type {m : Member} {t : TypeExpr} (hm : m.type = some t) (h : t.IsInline) :
    m.IsInline := by
  intro u hu
  cases hm.symm.trans hu
  exact h

theorem isInline_of_untyped {m : Member} (hm : m.type = none) : m.IsInline := by
  intro t ht
  rw [hm] at ht
  cases ht

theorem inline_attributeBody :
    Yields (fun x => x.2.IsInline) (attributeBody (levelAt n)) :=
  .skip fun _ => yields_attributedType.bind fun _ ht => .skip fun _ => .skip fun _ => .pure ht

theorem inline_operationBody : Yields Member.IsInline (operationBody (levelAt n)) :=
  (yields_place .result).bind fun _ ht => .skip fun _ => .skip fun _ => .skip fun _ =>
    .pure (isInline_of_type rfl ht)

theorem inline_constantMember : Yields Member.IsInline (constantMember (levelAt n)) :=
  .skip fun _ => .skip fun _ => yields_constantType.bind fun _ ht => .skip fun _ => .skip fun _ =>
    .skip fun _ => .skip fun _ => .pure (isInline_of_type rfl ht)

theorem inline_declaration (name : String) (rest : Parser Unit) :
    Yields Member.IsInline (declaration (levelAt n) name rest) :=
  .skip fun _ => .skip fun _ => .skip fun _ => .pure (isInline_of_untyped rfl)

theorem inline_interfaceMember : Yields Member.IsInline (interfaceMember (levelAt n)) := by
  refine .orElse inline_constantMember (.orElse ?_ (.orElse ?_ (.orElse ?_ ?_)))
  · exact .skip fun _ => .skip fun _ => .skip fun _ => inline_attributeBody.bind fun _ ht =>
      .pure (isInline_of_type rfl ht)
  · exact .skip fun _ => .skip fun _ => .skip fun _ => .skip fun _ => .skip fun _ =>
      .pure (isInline_of_untyped rfl)
  · exact .skip fun _ => .skip fun _ => .skip fun _ => .skip fun _ =>
      inline_operationBody.bind fun _ h => .pure h
  · exact .orElse (inline_declaration _ _) <| .orElse (inline_declaration _ _) <|
      .orElse (inline_declaration _ _) <| .orElse (inline_declaration _ _) <|
        .orElse (inline_declaration _ _) <| .orElse (inline_declaration _ _) <|
          inline_declaration _ _

theorem inline_mixinMember : Yields Member.IsInline (mixinMember (levelAt n)) := by
  refine .orElse inline_constantMember (.orElse ?_ (.orElse ?_ (inline_declaration _ _)))
  · exact .skip fun _ => .skip fun _ => inline_operationBody.bind fun _ h => .pure h
  · exact .skip fun _ => .skip fun _ => .skip fun _ => inline_attributeBody.bind fun _ ht =>
      .pure (isInline_of_type rfl ht)

theorem inline_namespaceMember : Yields Member.IsInline (namespaceMember (levelAt n)) := by
  refine .orElse ?_ ?_
  · exact .skip fun _ => .skip fun _ => inline_operationBody.bind fun _ h => .pure h
  · exact .skip fun _ => .skip fun _ => .skip fun _ => inline_attributeBody.bind fun _ ht =>
      .pure (isInline_of_type rfl ht)

def Field.IsInline (f : Field) : Prop := IsUnbroken f.name ∧ f.type.IsInline

theorem inline_dictionaryField : Yields Field.IsInline (dictionaryField (levelAt n)) :=
  .skip fun _ => .skip fun _ => .skip fun _ => (yields_place .type).bind fun _ ht =>
    yields_identifier.bind fun _ hname => .skip fun _ => .skip fun _ =>
      .pure ⟨isUnbroken_of_isIdentifier hname, ht⟩

/-- **The definitions of a source text are named in one line.** -/
theorem inline_of_parse {source : String} {fs : Fragments} (h : parse source = .ok fs) :
    ∀ d ∈ fs, d.MadeOf Member.IsInline Field.IsInline TypeExpr.IsInline :=
  forall_of_parse (fun _ => yields_definition inline_interfaceMember inline_mixinMember
    inline_namespaceMember inline_dictionaryField yields_attributedType) h

end IdlDocs.Idl
