import IdlDocs.Proofs.Idl.InStep.Characters
import IdlDocs.Proofs.Idl.Types.Tokens
import IdlDocs.Proofs.Text.Leaves

/-!
# Parentheses

What the grammar reads of types, values and arguments has as many closing parentheses as opening
ones, and never more of them in front of any place.  A text that starts with a parenthesis therefore
closes it at one place only, whatever the grammar reads it as.

* `closing?`: what stands behind the parenthesis that closes a text.
* `Balanced`: parsers that read balanced parentheses.
* `balanced_levelAt`: **the forms that nest are balanced.**
* `closing?_of_union`, `closing?_of_arguments`: a union and a list of arguments end where their
  parenthesis is closed.
-/

namespace IdlDocs.Idl

open Text Text.Parser

variable {α : Type} {p : Parser α} {s r : List Char} {c : Char} {k : Nat}

/-! ## Where a parenthesis is closed -/

/-- What stands behind the parenthesis that closes the text at the depth `k`, without the blanks in
front of it.  What stands in comments and between quotes does not count. -/
def closing? (s : List Char) (k : Nat) : Option (List Char) :=
  match h : skipBlank s with
  | [] => none
  | c :: r =>
    have hle := length_skipBlank_le s
    have hlt : r.length < s.length := by rw [h, List.length_cons] at hle; omega
    if c = '(' then closing? r (k + 1)
    else if c = ')' then
      match k with
      | 0 => some (skipBlank r)
      | k + 1 => closing? r k
    else if c = '"' then
      match hq : afterQuote? r with
      | none => none
      | some x =>
        have hquote := afterQuote?_length hq
        closing? x.2 k
    else closing? r k
termination_by s.length

theorem closing?_of_nil (h : skipBlank s = []) (k : Nat) : closing? s k = none := by
  rw [closing?]
  split
  · rfl
  · next he => rw [h] at he; cases he

/-- A character that is neither a parenthesis nor a quote. -/
theorem closing?_of_other (h : skipBlank s = c :: r) (hc : "()\"".toList.contains c = false)
    (k : Nat) : closing? s k = closing? r k := by
  rw [closing?]
  split
  · next he => rw [h] at he; cases he
  · next he =>
    rw [h] at he
    cases he
    simp only [List.contains_eq_mem, decide_eq_false_iff_not] at hc
    simp at hc
    rw [if_neg hc.1, if_neg hc.2.1, if_neg hc.2.2]

theorem closing?_of_open (h : skipBlank s = '(' :: r) (k : Nat) :
    closing? s k = closing? r (k + 1) := by
  rw [closing?]
  split
  · next he => rw [h] at he; cases he
  · next he =>
    rw [h] at he
    cases he
    rw [if_pos rfl]

theorem closing?_of_close (h : skipBlank s = ')' :: r) :
    closing? s 0 = some (skipBlank r) ∧ ∀ k, closing? s (k + 1) = closing? r k := by
  constructor
  all_goals
    try intro k
    rw [closing?]
    split
    · next he => rw [h] at he; cases he
    · next he =>
      rw [h] at he
      cases he
      rw [if_neg (by decide), if_pos rfl]

theorem closing?_of_quote (h : skipBlank s = '"' :: r) (k : Nat) :
    closing? s k = (afterQuote? r).bind fun x => closing? x.2 k := by
  rw [closing?]
  split
  · next he => rw [h] at he; cases he
  · next he =>
    rw [h] at he
    cases he
    rw [if_neg (by decide), if_neg (by decide), if_pos rfl]
    split
    · next hq => exact (congrArg (Option.bind · fun x => closing? x.2 k) hq).symm
    · next hq => exact (congrArg (Option.bind · fun x => closing? x.2 k) hq).symm

theorem closing?_congr {t : List Char} (h : skipBlank s = skipBlank t) :
    closing? s = closing? t := by
  funext k
  cases ht : skipBlank t with
  | nil => rw [closing?_of_nil (h.trans ht), closing?_of_nil ht]
  | cons c r =>
    have hs := h.trans ht
    by_cases hc : "()\"".toList.contains c = false
    · rw [closing?_of_other hs hc, closing?_of_other ht hc]
    · have hmem : c = '(' ∨ c = ')' ∨ c = '"' := by
        rw [Bool.not_eq_false, List.contains_iff_mem] at hc
        simpa using hc
      rcases hmem with rfl | rfl | rfl
      · rw [closing?_of_open hs, closing?_of_open ht]
      · cases k with
        | zero => rw [(closing?_of_close hs).1, (closing?_of_close ht).1]
        | succ k => rw [(closing?_of_close hs).2, (closing?_of_close ht).2]
      · rw [closing?_of_quote hs, closing?_of_quote ht]

@[simp]
theorem closing?_skipBlank (s : List Char) : closing? (skipBlank s) = closing? s :=
  closing?_congr (skipBlank_skipBlank s)

/-- The characters that open and close nothing here, and start no comment. -/
def isInert (c : Char) : Bool := !"()\"/".toList.contains c

theorem closing?_cons (hc : isInert c = true) (s : List Char) :
    closing? (c :: s) = closing? s := by
  cases hspace : isSpace c with
  | true => exact closing?_congr (skipBlank_of_space hspace)
  | false =>
    have hnot : c ∉ ['(', ')', '"', '/'] := by simpa [isInert] using hc
    have hne : c ≠ '/' := fun he => hnot (by simp [he])
    have hother : "()\"".toList.contains c = false := by
      simp only [List.mem_cons, not_or] at hnot
      simp [hnot]
    funext k
    exact closing?_of_other (skipBlank_of_stop (afterComment?_of_ne hne) hspace) hother k

/-! ## Balanced tokens -/

/-- The parser reads as many closing parentheses as opening ones, in their order. -/
def Balanced (p : Parser α) : Prop := Leaves closing? p

theorem isInert_of_class {p : Char → Bool} (h : "()\"/".toList.any p = false) (c : Char)
    (hc : p c = true) : isInert c = true := by
  unfold isInert
  rw [Bool.not_eq_true', ← Bool.not_eq_true, List.contains_iff_mem]
  intro hmem
  exact List.any_eq_false.1 h c hmem hc

namespace Balanced

variable {m : String} {q : Char → Bool}

theorem blank : Balanced blank := by
  intro s r a h
  cases h
  exact closing?_skipBlank s

theorem satisfy (hq : "()\"/".toList.any q = false) : Balanced (Parser.satisfy q) := by
  intro s r a h
  unfold Parser.satisfy at h
  split at h
  · next c s =>
    cases hc : q c with
    | false => rw [hc] at h; cases h
    | true =>
      rw [hc] at h
      cases h
      exact (closing?_cons (isInert_of_class hq _ hc) r).symm
  · cases h

/-- By induction on the text. -/
theorem run (hq : "()\"/".toList.any q = false) : Balanced (Parser.run q) := by
  intro s r a h
  cases h
  show closing? (s.dropWhile q) = closing? s
  induction s with
  | nil => rfl
  | cons c s ih =>
    cases hc : q c with
    | false => rw [List.dropWhile_cons_of_neg (by simp [hc])]
    | true =>
      rw [List.dropWhile_cons_of_pos hc, ih, closing?_cons (isInert_of_class hq c hc)]

theorem run1 (hq : "()\"/".toList.any q = false) : Balanced (Parser.run1 q) :=
  (satisfy hq).bind fun _ => (run hq).bind fun _ => .pure _

theorem notBefore : Balanced (Parser.notBefore q) := by
  intro s r a h
  unfold Parser.notBefore at h
  split at h
  · split at h
    · cases h
    · cases h; rfl
  · cases h; rfl

theorem exactly {w : List Char} (hw : w.all isInert = true) : Balanced (Parser.exactly w) := by
  intro s r a h
  obtain ⟨r', hr, he⟩ := Option.map_eq_some_iff.1 h
  cases he
  rw [eq_append_of_dropLead? hr]
  clear h hr
  induction w with
  | nil => rfl
  | cons c w ih =>
    rw [List.all_cons, Bool.and_eq_true] at hw
    rw [List.cons_append, closing?_cons hw.1]
    exact ih hw.2

theorem token (hp : Balanced p) : Balanced (token p) :=
  blank.bind fun _ => hp.bind fun _ => blank.bind fun _ => .pure _

theorem mark (hm : m.toList.all isInert = true) : Balanced (mark m) := (exactly hm).token

theorem keyword (hm : m.toList.all isInert = true) : Balanced (keyword m) :=
  token ((exactly hm).bind fun _ => notBefore)

theorem identifier : Balanced identifier := by
  refine token ((exactly (by decide)).present.bind fun _ => ?_)
  exact Leaves.bind ((satisfy (by decide)).bind fun _ => (run (by decide)).bind fun _ => .pure _)
    fun _ => .pure _

theorem quotedText : Balanced quotedText := by
  refine token (p := betweenQuotes) fun s r a h => ?_
  cases s with
  | nil => cases h
  | cons c s =>
    by_cases hc : c = '"'
    · subst hc
      rw [betweenQuotes_apply] at h
      obtain ⟨x, hx, he⟩ := Option.map_eq_some_iff.1 h
      cases he
      funext k
      rw [closing?_of_quote (skipBlank_of_stop rfl rfl), hx]
      rfl
    · simp [betweenQuotes, bind_apply, Parser.exactly, dropLead?, Ne.symm hc] at h

theorem sign : Balanced (Parser.present (Parser.exactly ['-'])) :=
  Leaves.present (exactly (by decide))

theorem exponent : Balanced exponent :=
  (satisfy (by decide)).bind fun _ => (satisfy (by decide)).optional.bind fun _ =>
    (run1 (by decide)).bind fun _ => .pure _

theorem pointed : Balanced pointed :=
  .orElse
    ((run1 (by decide)).bind fun _ => (exactly (by decide)).bind fun _ =>
      (run (by decide)).bind fun _ => .pure _)
    ((run (by decide)).bind fun _ => (exactly (by decide)).bind fun _ =>
      (run1 (by decide)).bind fun _ => .pure _)

theorem decimal : Balanced decimal :=
  token <| sign.bind fun _ =>
    .orElse (pointed.bind fun _ => exponent.optional.bind fun _ => .pure _)
      ((run1 (by decide)).bind fun _ => exponent)

theorem integer : Balanced integer := by
  refine token (sign.bind fun _ => .orElse ?_ (.orElse ?_ ?_))
  · exact (satisfy (by decide)).bind fun _ => (run (by decide)).bind fun _ => .pure _
  · exact (exactly (by decide)).bind fun _ => (satisfy (by decide)).bind fun _ =>
      (run (by decide)).bind fun _ => .pure _
  · exact (exactly (by decide)).bind fun _ => (run (by decide)).bind fun _ => .pure _

end Balanced

/-! ## Between parentheses -/

section Between

variable {β : Type} {f : α → β} {u : Unit}

theorem skipBlank_of_head? (h : (tokens s).head? = some (.mark c)) :
    ∃ r, skipBlank s = c :: r ∧ after s = skipBlank r := by
  rw [head?_tokens] at h
  unfold after
  unfold firstToken? at h ⊢
  cases hs : skipBlank s with
  | nil => rw [hs] at h; cases h
  | cons d t =>
    rw [hs] at h
    cases hd : isWordStart d with
    | true => simp [hd] at h
    | false =>
      simp only [hd, Bool.false_eq_true, if_false, Option.map_some, Option.some.injEq,
        Token.mark.injEq] at h
      exact ⟨t, by rw [h], by simp [hd]⟩

theorem closing?_of_openMark (h : mark "(" s = some (u, r)) (k : Nat) :
    closing? s k = closing? r (k + 1) := by
  obtain ⟨hhead, rfl⟩ := (mark_eq_some_iff (m := "(") rfl (by decide)).1 h
  obtain ⟨t, ht, hafter⟩ := skipBlank_of_head? hhead
  rw [closing?_of_open ht, hafter, closing?_skipBlank]

theorem closing?_of_closeMark (h : mark ")" s = some (u, r)) :
    closing? s 0 = some r ∧ ∀ k, closing? s (k + 1) = closing? r k := by
  obtain ⟨hhead, rfl⟩ := (mark_eq_some_iff (m := ")") rfl (by decide)).1 h
  obtain ⟨t, ht, hafter⟩ := skipBlank_of_head? hhead
  rw [hafter, closing?_skipBlank]
  exact closing?_of_close ht

theorem closing?_between (hp : Balanced p) {b : β}
    (h : (do mark "("; let a ← p; mark ")"; return f a : Parser β) s = some (b, r)) :
    closing? (after s) 0 = some r ∧ closing? r = closing? s := by
  obtain ⟨⟨u, x⟩, hopen, h⟩ := Option.bind_eq_some_iff.1 h
  obtain ⟨⟨a, y⟩, hread, h⟩ := Option.bind_eq_some_iff.1 h
  obtain ⟨⟨v, z⟩, hclose, h⟩ := Option.bind_eq_some_iff.1 h
  cases h
  obtain ⟨-, rfl⟩ := (mark_eq_some_iff (m := "(") rfl (by decide)).1 hopen
  obtain ⟨hend, hback⟩ := closing?_of_closeMark hclose
  have hsame := hp _ _ _ hread
  refine ⟨by rw [← hsame, hend], ?_⟩
  funext k
  rw [closing?_of_openMark hopen, ← hsame, hback]

theorem Balanced.between (hp : Balanced p) :
    Balanced (do Idl.mark "("; let a ← p; Idl.mark ")"; return f a) :=
  fun _ _ _ h => (closing?_between hp h).2

end Between

/-! ## Balanced forms -/

/-- The forms that nest are balanced. -/
structure Level.Balanced (inner : Level) : Prop where
  nonAny : Idl.Balanced inner.nonAny
  union : Idl.Balanced inner.union
  attributes : Idl.Balanced inner.attributes

namespace Balanced

variable {inner : Level} (h : inner.Balanced)

theorem nullableMark : Balanced nullableMark := Leaves.present (mark (by decide))

theorem markable {p : Parser TypeExpr} (hp : Balanced p) : Balanced (markable p) :=
  hp.bind fun _ => nullableMark.bind fun _ => .pure _

theorem keywordTypes (ws : List String) (hws : ∀ w ∈ ws, w.toList.all isInert = true) :
    Balanced (firstOf (ws.map keywordType)) :=
  Leaves.firstOf ws fun w hw => (keyword (hws w hw)).bind fun _ => nullableMark.bind fun _ =>
    .pure _

theorem modified {modifier : String} {size : List String} (hm : modifier.toList.all isInert = true)
    (hs : ∀ w ∈ size, w.toList.all isInert = true) : Balanced (modified modifier size) :=
  (keyword hm).present.bind fun _ => (Leaves.forM size fun w hw => keyword (hs w hw)).bind fun _ =>
    .pure _

theorem integerType : Balanced integerType :=
  .orElse (modified (by decide) (by decide)) <|
    .orElse (modified (by decide) (by decide)) (modified (by decide) (by decide))

theorem floatType : Balanced floatType :=
  .orElse (modified (by decide) (by decide)) (modified (by decide) (by decide))

theorem bracketed {w : String} (hw : w.toList.all isInert = true) (hp : Balanced p) :
    Balanced (bracketed w p) :=
  (keyword hw).bind fun _ => (mark (by decide)).bind fun _ => hp.bind fun _ =>
    (mark (by decide)).bind fun _ => .pure _

theorem genericType {kind : GenericKind} (hw : kind.tag.toList.all isInert = true)
    {p : Parser TypeExpr} (hp : Balanced p) : Balanced (genericType kind p) :=
  (bracketed hw hp).bind fun _ => .pure _

include h

theorem unionType : Balanced (unionType inner) := h.union.markable

theorem typeExpr : Balanced (typeExpr inner) :=
  .orElse ((keyword (by decide)).bind fun _ => .pure _) (.orElse h.nonAny (unionType h))

theorem returnType : Balanced (returnType inner) :=
  .orElse ((keyword (by decide)).bind fun _ => .pure _) (typeExpr h)

theorem keyType : Balanced (keyType inner) := by
  have hwords : ∀ w ∈ ["ByteString", "DOMString", "USVString"], w.toList.all isInert = true := by
    decide
  exact .orElse (Leaves.firstOf _ fun w hw => (keyword (hwords w hw)).bind fun _ => .pure _)
    h.nonAny

theorem recordType : Balanced (recordType inner) :=
  bracketed (by decide) <| (keyType h).bind fun _ => (mark (by decide)).bind fun _ =>
    (typeExpr h).bind fun _ => .pure _

theorem nonAnyType : Balanced (nonAnyType inner) := by
  refine .orElse (genericType (by decide) (returnType h)) ?_
  refine .orElse integerType.markable (.orElse floatType.markable ?_)
  refine .orElse (keywordTypes keywordsBefore (by decide)) ?_
  refine .orElse (genericType (by decide) (typeExpr h)).markable ?_
  refine .orElse (keywordTypes keywordsAfter (by decide)) ?_
  refine .orElse (genericType (by decide) (typeExpr h)).markable ?_
  exact .orElse (recordType h).markable (markable (Leaves.map identifier))

theorem attributesOf : Balanced (attributesOf inner) := .orElse h.attributes (.pure [])

theorem attributedType : Balanced (attributedType inner) :=
  (attributesOf h).bind fun _ => typeExpr h

theorem unionMembers : Balanced (list0 (unionMember inner) (Idl.keyword "or")) :=
  .list0 (.orElse ((attributesOf h).bind fun _ => h.nonAny) (unionType h)) (keyword (by decide))

omit h in
theorem literal : Balanced literal := by
  have hword {w : String} (hw : w.toList.all isInert = true) : Balanced (Idl.keyword w) :=
    keyword hw
  refine .orElse (.orElse (hword (by decide)) (hword (by decide))) ?_
  refine .orElse ((mark (by decide)).bind fun _ => mark (by decide)) ?_
  refine .orElse ((mark (by decide)).bind fun _ => mark (by decide)) (.orElse ?_ ?_)
  · exact .orElse decimal (.orElse (hword (by decide)) (.orElse (hword (by decide))
      (hword (by decide))))
  · exact .orElse integer (.orElse (hword (by decide)) quotedText.map)

theorem singleArgument : Balanced (singleArgument inner) := by
  refine (attributesOf h).bind fun _ => (keyword (by decide)).present.bind fun mayMiss => ?_
  refine (attributedType h).bind fun _ => identifier.bind fun _ => ?_
  have hdefault : Balanced defaultValue := (mark (by decide)).bind fun _ => literal
  cases mayMiss with
  | true => exact hdefault.optional.bind fun _ => .pure _
  | false => exact .pure _

theorem variadicArgument : Balanced (variadicArgument inner) :=
  (attributesOf h).bind fun _ => (typeExpr h).bind fun _ => (mark (by decide)).bind fun _ =>
    identifier.bind fun _ => .pure _

/-- The arguments of an operation. -/
theorem arguments : Balanced (list0 (argument inner) (Idl.mark ",")) :=
  .list0 (.orElse (singleArgument h) (variadicArgument h)) (mark (by decide))

theorem argumentList : Balanced (argumentList inner) := (arguments h).between

theorem extendedAttribute : Balanced (extendedAttribute inner) := by
  have hequals : Balanced (Idl.mark "=") := mark (by decide)
  have hnames : Balanced (list0 Idl.identifier (Idl.mark ",")) :=
    .list0 identifier (mark (by decide))
  refine .orElse (identifier.bind fun _ => (argumentList h).bind fun _ => .pure _) ?_
  refine .orElse (identifier.bind fun _ => hequals.bind fun _ => identifier.bind fun _ =>
    (argumentList h).bind fun _ => .pure _) ?_
  refine .orElse (identifier.bind fun _ => hequals.bind fun _ => hnames.between) ?_
  exact .orElse (identifier.bind fun _ => hequals.bind fun _ =>
    (Leaves.orElse identifier quotedText).bind fun _ => .pure _) identifier

theorem attributeList : Balanced (attributeList inner) :=
  (mark (by decide)).bind fun _ => (Leaves.list0 (extendedAttribute h) (mark (by decide))).bind
    fun _ => (mark (by decide)).bind fun _ => .pure _

end Balanced

/-- **The forms that nest are balanced**, at every level. -/
theorem balanced_levelAt (n : Nat) : (levelAt n).Balanced := by
  induction n with
  | zero => exact ⟨.fail, .fail, .fail⟩
  | succ n ih =>
    exact ⟨Balanced.nonAnyType ih, (Balanced.unionMembers ih).between, Balanced.attributeList ih⟩

/-! ## Where unions and lists of arguments end -/

section Ends

variable {n : Nat}

theorem closing?_of_union {t : TypeExpr} (h : (levelAt n).union s = some (t, r)) :
    closing? (after s) 0 = some r := by
  cases n with
  | zero => cases h
  | succ n => exact (closing?_between (Balanced.unionMembers (balanced_levelAt n)) h).1

theorem closing?_of_arguments {args : List Argument}
    (h : argumentList (levelAt n) s = some (args, r)) : closing? (after s) 0 = some r :=
  (closing?_between (Balanced.arguments (balanced_levelAt n)) h).1

end Ends

end IdlDocs.Idl
