import IdlDocs.Proofs.Idl.Parentheses
import IdlDocs.Proofs.Idl.Types.Sources

/-!
# Operations read at a word

An operation is a return type, a name that may be missing, and arguments.  The grammar reads the
type first, so that a word at its front may be a type where it was meant as something else.  What
follows tells how the word was read: a parenthesis behind a word makes this word a type or a name.

* `callRest`, `operationBody_eq`: an operation behind its return type.
* `returnType_of_head`: a word that is no keyword of the types is a type of its own.
* `place_of_call`: **a word with a parenthesis behind it is a type, whatever word it is.**
* `operationBody_of_callRest`: **where a name and arguments can be read, an operation has the name
  for its type.**
* `attributedType_of_callRest`: there is no type with a name there.
-/

namespace IdlDocs.Idl

open Text Text.Parser

variable {α β : Type} {n : Nat} {s r : List Char} {w name : String} {t : TypeExpr} {op : Member}
  {args : List Argument} {x : Option String × List Argument}

/-! ## An operation behind its return type -/

def closedArguments (inner : Level) : Parser (List Argument) := do
  let arguments ← argumentList inner
  semicolon
  return arguments

def callRest (inner : Level) : Parser (Option String × List Argument) := do
  let name ← Parser.optional identifier
  let arguments ← closedArguments inner
  return (name, arguments)

def operationOf (returns : TypeExpr) (x : Option String × List Argument) : Member :=
  { kind := .operation, name := x.1, type := some returns, arguments := x.2 }

theorem operationBody_eq (inner : Level) :
    operationBody inner = returnType inner >>= fun t => operationOf t <$> callRest inner := by
  simp only [operationBody, callRest, closedArguments, operationOf, bind_assoc, pure_bind,
    map_eq_pure_bind]

theorem head?_of_argumentList {inner : Level} (h : argumentList inner s = some (args, r)) :
    (tokens s).head? = some (.mark '(') := by
  obtain ⟨u, y, hmark, h⟩ := bind_eq_some h
  exact ((mark_eq_some_iff (m := "(") rfl (by decide)).1 hmark).1

theorem closedArguments_eq_some {inner : Level}
    (h : closedArguments inner s = some (args, r)) :
    ∃ y, argumentList inner s = some (args, y) ∧ (tokens y).head? = some (.mark ';') ∧
      r = after y := by
  obtain ⟨as, y, hargs, h⟩ := bind_eq_some h
  obtain ⟨u, z, hend, h⟩ := bind_eq_some h
  cases h
  obtain ⟨hhead, rfl⟩ := (mark_eq_some_iff (m := ";") rfl (by decide)).1 hend
  exact ⟨y, hargs, hhead, rfl⟩

theorem head?_of_closedArguments {inner : Level}
    (h : closedArguments inner s = some (args, r)) : (tokens s).head? = some (.mark '(') := by
  obtain ⟨y, hargs, -⟩ := closedArguments_eq_some h
  exact head?_of_argumentList hargs

/-- A name in front of the arguments, or none. -/
theorem callRest_eq_some {inner : Level} (h : callRest inner s = some (x, r)) :
    (x.1 = none ∧ (tokens s).head? = some (.mark '(') ∧
      closedArguments inner s = some (x.2, r)) ∨
    ∃ w name, x.1 = some name ∧ (tokens s).head? = some (.word w) ∧ nameOf? w = some name ∧
      (tokens (after s)).head? = some (.mark '(') ∧
      closedArguments inner (after s) = some (x.2, r) := by
  obtain ⟨o, y, hname, h⟩ := bind_eq_some h
  obtain ⟨args, z, hargs, h⟩ := bind_eq_some h
  cases h
  have hhead := head?_of_closedArguments hargs
  rcases orElse_eq_some hname with hname | ⟨-, hname⟩
  · obtain ⟨name, hid, hx⟩ := map_eq_some hname
    rw [identifier_apply] at hid
    obtain ⟨name', hbind, he⟩ := Option.map_eq_some_iff.1 hid
    cases he
    obtain ⟨t, ht, hname⟩ := Option.bind_eq_some_iff.1 hbind
    cases t with
    | mark c => cases hname
    | word w => exact .inr ⟨w, name, hx.symm, ht, hname, hhead, hargs⟩
  · cases hname
    exact .inl ⟨rfl, hhead, hargs⟩

/-- Without a name, the rest of an operation is its arguments. -/
theorem callRest_of_open {inner : Level} (h : (tokens s).head? = some (.mark '(')) :
    callRest inner s = (closedArguments inner s).map fun x => ((none, x.1), x.2) := by
  unfold callRest
  rw [bind_apply, optional_apply_of_none (identifier_eq_none h), Option.bind_some, bind_apply]
  cases closedArguments inner s <;> rfl

/-! ## Types at a word -/

def returnWords : List String := "undefined" :: "any" :: nonAnyWords

/-- A return type that starts with none of these words and no parenthesis is an identifier. -/
theorem returnType_of_head (hopen : (tokens s).head? ≠ some (.mark '('))
    (h : ∀ w ∈ returnWords, (tokens s).head? ≠ some (.word w)) :
    returnType (levelAt (n + 1)) s = markable namedType s := by
  have hkeyword {v : String} (hv : IsWord v) (hmem : v ∈ returnWords) :
      (do keyword v; return TypeExpr.named v : Parser TypeExpr) s = none :=
    keyword_bind_eq_none hv (h v hmem)
  refine orElse_of_none (hkeyword (by decide) (by decide))
    (orElse_of_none (hkeyword (by decide) (by decide)) ?_)
  have hunion : unionType (levelAt (n + 1)) s = none := markable_eq_none (union_eq_none hopen)
  have hnonAny : (levelAt (n + 1)).nonAny s = markable namedType s :=
    nonAnyType_of_head fun w hw => h w (by simp [returnWords, hw])
  rw [orElse_apply, hunion, Option.or_none, hnonAny]

theorem returnType_eq_none {c : Char} (h : (tokens s).head? = some (.mark c)) (hc : c ≠ '(') :
    returnType (levelAt (n + 1)) s = none := by
  have hnone : namedType s = none := by
    unfold namedType
    rw [map_apply, identifier_eq_none h]
    rfl
  rw [returnType_of_head (by simp [h, hc]) (by rw [h]; exact fun _ _ => nofun)]
  exact markable_eq_none hnone

/-- **A word with a parenthesis behind it is a type**, whatever word it is. -/
theorem place_of_call {p : Place} (h : (tokens s).head? = some (.word w))
    (hname : nameOf? w = some name) (hafter : (tokens (after s)).head? = some (.mark '(')) :
    p.parser (levelAt (n + 1)) s = some (.named name, after s) := by
  have hword := isWord_of_head? h
  obtain ⟨ts, hts⟩ := List.head?_eq_some_iff.1 hafter
  have htokens : tokens s = .word w :: .mark '(' :: ts := by rw [tokens_eq_cons h, hts]
  have hread : Gives (p.parser (levelAt (n + 1))) s (TypeExpr.named w).kept (.mark '(' :: ts) :=
    gives_name (b := false) (.inr ⟨hword, by rw [hname]; rfl⟩) nofun
      (by decide : Token.stops (.mark '(') = true)
      (by rw [htokens, TypeExpr.withMark, TypeExpr.tokens, wordsOf_of_isWord hword]; rfl)
  rw [TypeExpr.kept, keptName_of_nameOf? hname] at hread
  exact hread.eq_after htokens

/-! ## Unions and arguments -/

/-- A union that stands where arguments can be read has the semicolon behind it that ends them. -/
theorem head?_of_union (hargs : closedArguments (levelAt n) s = some (args, r)) {y : List Char}
    {m : Nat} (h : (levelAt m).union s = some (t, y)) : (tokens y).head? = some (.mark ';') := by
  obtain ⟨z, hargs, hend, -⟩ := closedArguments_eq_some hargs
  have hsame := (closing?_of_union h).symm.trans (closing?_of_arguments hargs)
  rw [Option.some.inj hsame]
  exact hend

/-- The type that starts with a parenthesis where arguments can be read. -/
theorem place_of_open {p : Place} (hp : p = .type ∨ p = .result)
    (hargs : closedArguments (levelAt (n + 1)) s = some (args, r)) {y : List Char}
    (h : p.parser (levelAt (n + 1)) s = some (t, y)) : (tokens y).head? = some (.mark ';') := by
  have hhead := head?_of_closedArguments hargs
  have hkeyword {v : String} (hv : IsWord v) {f : Unit → Parser TypeExpr} :
      (keyword v >>= f) s = none := keyword_bind_eq_none hv (by rw [hhead]; nofun)
  have htype {t : TypeExpr} {y : List Char} (h : typeExpr (levelAt (n + 1)) s = some (t, y)) :
      (tokens y).head? = some (.mark ';') := by
    unfold typeExpr at h
    rw [orElse_apply, hkeyword (by decide), Option.none_or, orElse_apply, nonAny_eq_none hhead,
      Option.none_or] at h
    obtain ⟨u, z, hunion, h⟩ := bind_eq_some h
    have hend := head?_of_union hargs hunion
    rw [bind_apply, nullableMark_apply, if_neg (by rw [hend]; decide)] at h
    cases h
    exact hend
  rcases hp with rfl | rfl
  · exact htype h
  · have h : returnType (levelAt (n + 1)) s = some (t, y) := h
    unfold returnType at h
    rw [orElse_apply, hkeyword (by decide), Option.none_or] at h
    exact htype h

/-! ## Operations where a name and arguments can be read -/

theorem not_callRest_of_semicolon {inner : Level} (h : (tokens s).head? = some (.mark ';')) :
    callRest inner s ≠ some (x, r) := by
  intro hrest
  rcases callRest_eq_some hrest with ⟨-, hhead, -⟩ | ⟨w, name, -, hhead, -⟩
  · rw [h] at hhead
    exact absurd hhead (by decide)
  · rw [h] at hhead
    cases hhead

/-- **Where a name and arguments can be read, an operation has the name for its type**, and no
name. -/
theorem operationBody_of_callRest (h : callRest (levelAt (n + 1)) s = some (x, r))
    {y : List Char} (hop : operationBody (levelAt (n + 1)) s = some (op, y)) :
    ∃ name, x.1 = some name ∧ op = operationOf (.named name) (none, x.2) ∧ y = r := by
  rw [operationBody_eq] at hop
  obtain ⟨t, z, htype, hop⟩ := bind_eq_some hop
  obtain ⟨x', hrest, rfl⟩ := map_eq_some hop
  rcases callRest_eq_some h with ⟨-, -, hargs⟩ | ⟨w, name, hx, hhead, hname, hafter, hargs⟩
  · -- The type would be a union, with the semicolon of the arguments behind it.
    exact absurd hrest (not_callRest_of_semicolon (place_of_open (p := .result) (.inr rfl) hargs
      htype))
  · have hcall : returnType (levelAt (n + 1)) s = some (.named name, after s) :=
      place_of_call (p := .result) hhead hname hafter
    rw [hcall] at htype
    cases htype
    rw [callRest_of_open hafter, hargs] at hrest
    cases hrest
    exact ⟨name, hx, rfl, rfl⟩

/-- An operation that starts with no keyword of the types has this word for its type. -/
theorem operationBody_of_head (h : (tokens s).head? = some (.word w)) (hw : w ∉ returnWords)
    (hname : nameOf? w = some w) (hop : operationBody (levelAt (n + 1)) s = some (op, r)) :
    (tokens (after s)).head? = some (.mark '?') ∨
      ∃ x, callRest (levelAt (n + 1)) (after s) = some (x, r) ∧
        op = operationOf (.named w) x := by
  by_cases hmark : (tokens (after s)).head? = some (.mark '?')
  · exact .inl hmark
  rw [operationBody_eq] at hop
  obtain ⟨t, z, htype, hop⟩ := bind_eq_some hop
  have hnamed : namedType s = some (.named w, after s) := by
    unfold namedType
    rw [map_apply, identifier_apply, h]
    simp [Token.name?, hname]
  have hother : ∀ v ∈ returnWords, (tokens s).head? ≠ some (.word v) := by
    intro v hv he
    rw [h] at he
    exact hw (Token.word.inj (Option.some.inj he) ▸ hv)
  rw [returnType_of_head (by simp [h]) hother] at htype
  unfold markable at htype
  rw [bind_of_some hnamed, bind_apply, nullableMark_apply, if_neg hmark] at htype
  cases htype
  obtain ⟨x, hrest, rfl⟩ := map_eq_some hop
  exact .inr ⟨x, hrest, rfl⟩

/-! ## Attributes where a name and arguments can be read -/

/-- **There is no type with a name behind it**, where a name and arguments can be read. -/
theorem attributedType_of_callRest (h : callRest (levelAt (n + 1)) s = some (x, r))
    (f : TypeExpr → String → Parser α) :
    (do let t ← attributedType (levelAt (n + 1)); let name ← identifier; f t name) s = none := by
  cases hread : attributedType (levelAt (n + 1)) s with
  | none => exact bind_eq_none hread _
  | some z =>
    obtain ⟨t, y⟩ := z
    -- Behind the type stands what follows the name, or the end of the arguments.
    have hend : ∃ c, (tokens y).head? = some (.mark c) := by
      unfold attributedType at hread
      rcases callRest_eq_some h with ⟨-, hhead, hargs⟩ | ⟨w, name, -, hhead, hname, hafter, -⟩
      · rw [attributesOf_bind (by rw [hhead]; decide)] at hread
        exact ⟨_, place_of_open (p := .type) (.inl rfl) hargs hread⟩
      · rw [attributesOf_bind (by rw [hhead]; nofun)] at hread
        have hcall : typeExpr (levelAt (n + 1)) s = some (.named name, after s) :=
          place_of_call (p := .type) hhead hname hafter
        rw [hcall] at hread
        cases hread
        exact ⟨_, hafter⟩
    obtain ⟨c, hc⟩ := hend
    rw [bind_of_some hread]
    exact bind_eq_none (identifier_eq_none hc) _

theorem attributeBody_of_callRest (h : callRest (levelAt (n + 1)) s = some (x, r)) :
    attributeBody (levelAt (n + 1)) s = none := by
  have hword : IsWord "attribute" := by decide
  unfold attributeBody
  by_cases hhead : (tokens s).head? = some (.word "attribute")
  · have hkeyword : keyword "attribute" s = some ((), after s) :=
      (keyword_eq_some_iff hword).2 ⟨hhead, rfl⟩
    rw [bind_of_some hkeyword]
    rcases callRest_eq_some h with ⟨-, hopen, -⟩ | ⟨w, name, -, -, -, hafter, hargs⟩
    · rw [hhead] at hopen
      cases hopen
    · have hrest : callRest (levelAt (n + 1)) (after s) = some ((none, x.2), r) := by
        rw [callRest_of_open hafter, hargs]
        rfl
      exact attributedType_of_callRest hrest _
  · exact keyword_bind_eq_none hword hhead

theorem head?_of_attributeBody {inner : Level} {a : String × TypeExpr}
    (h : attributeBody inner s = some (a, r)) : (tokens s).head? = some (.word "attribute") := by
  obtain ⟨u, y, hkeyword, -⟩ := bind_eq_some h
  exact ((keyword_eq_some_iff (by decide)).1 hkeyword).1

def attributeRest (inner : Level) : Parser (Bool × String × TypeExpr) := do
  let readonly ← present (keyword "readonly")
  let x ← attributeBody inner
  return (readonly, x)

theorem attributeRest_eq_some {inner : Level} {a : Bool × String × TypeExpr}
    (h : attributeRest inner s = some (a, r)) :
    ((tokens s).head? = some (.word "readonly") ∧
        attributeBody inner (after s) = some (a.2, r)) ∨
      ((tokens s).head? = some (.word "attribute") ∧
        attributeBody inner s = some (a.2, r)) := by
  have hword : IsWord "readonly" := by decide
  obtain ⟨b, y, hpresent, h⟩ := bind_eq_some h
  obtain ⟨z, y', hbody, h⟩ := bind_eq_some h
  cases h
  rcases orElse_eq_some hpresent with hpresent | ⟨-, hpresent⟩
  · obtain ⟨u, hu, -⟩ := map_eq_some hpresent
    obtain ⟨hhead, rfl⟩ := (keyword_eq_some_iff hword).1 hu
    exact .inl ⟨hhead, hbody⟩
  · cases hpresent
    exact .inr ⟨head?_of_attributeBody hbody, hbody⟩

theorem attributeRest_of_callRest (h : callRest (levelAt (n + 1)) s = some (x, r)) :
    attributeRest (levelAt (n + 1)) s = none := by
  cases hrest : attributeRest (levelAt (n + 1)) s with
  | none => rfl
  | some z =>
    obtain ⟨a, y⟩ := z
    rcases attributeRest_eq_some hrest with ⟨hhead, hbody⟩ | ⟨-, hbody⟩
    · rcases callRest_eq_some h with ⟨-, hopen, -⟩ | ⟨w, name, -, -, -, hafter, -⟩
      · rw [hhead] at hopen
        cases hopen
      · exact absurd (hafter.symm.trans (head?_of_attributeBody hbody)) nofun
    · rw [attributeBody_of_callRest h] at hbody
      cases hbody

theorem attributedType_eq_none {c : Char} (h : (tokens s).head? = some (.mark c))
    (hc : c ≠ '(' ∧ c ≠ '[') : attributedType (levelAt (n + 1)) s = none := by
  have hreturn := returnType_eq_none (n := n) h hc.1
  unfold returnType at hreturn
  rw [orElse_apply, Option.or_eq_none_iff] at hreturn
  unfold attributedType
  rw [attributesOf_bind (by simp [h, hc.2])]
  exact hreturn.2

/-- **No text is both an operation and an attribute.** -/
theorem attributeRest_of_operationBody (hop : operationBody (levelAt (n + 1)) s = some (op, r)) :
    attributeRest (levelAt (n + 1)) s = none := by
  cases hrest : attributeRest (levelAt (n + 1)) s with
  | none => rfl
  | some z =>
    obtain ⟨a, y⟩ := z
    rcases attributeRest_eq_some hrest with ⟨hhead, hbody⟩ | ⟨hhead, hbody⟩
    · rcases operationBody_of_head hhead (by decide) (by decide) hop with hmark | ⟨x, hcall, -⟩
      · exact absurd (hmark.symm.trans (head?_of_attributeBody hbody)) nofun
      · rw [attributeBody_of_callRest hcall] at hbody
        cases hbody
    · obtain ⟨u, z, hkeyword, hbody⟩ := bind_eq_some hbody
      obtain ⟨-, rfl⟩ := (keyword_eq_some_iff (by decide)).1 hkeyword
      rcases operationBody_of_head hhead (by decide) (by decide) hop with hmark | ⟨x, hcall, -⟩
      · rw [bind_eq_none (attributedType_eq_none hmark (by decide))] at hbody
        cases hbody
      · rw [attributedType_of_callRest hcall] at hbody
        cases hbody

end IdlDocs.Idl
