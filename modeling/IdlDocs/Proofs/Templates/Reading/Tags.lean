import IdlDocs.Proofs.Templates.Reading.Expressions

/-!
# Reading texts and tags as they are written

A template is written as texts with tags between them, and a tag is written as a call: what it
refers to and arguments, each of them behind a blank.  What is written so is read as it is written,
and the texts in front of tags may hold anything that is no tag itself.

* `Call.source`, `Tag.source`: how calls and tags are written.
* `Call.isWritten`, `Tag.isWritten`: the test that they can be read again.
* `call_source`, `tag_source`: **calls and tags are read as they are written.**
* `parse?_rows`: **a source text is read by the texts and the tags that it is made of.**
-/

namespace IdlDocs.Templates

open Text Text.Parser

variable {rest : List Char}

/-! ## Reading calls -/

/-- How arguments by position are written. -/
def argsSource (args : List Expr) : List Char := args.flatMap fun e => ' ' :: e.source

/-- How arguments by name are written. -/
def namedSource (named : List (String × Expr)) : List Char :=
  named.flatMap fun x => ' ' :: (x.1.toList ++ '=' :: x.2.source)

/-- How a call is written. -/
def Call.source (c : Call) : List Char :=
  c.head.source ++ (argsSource c.args ++ namedSource c.named)

/-- Tells whether an argument by name is read as it is written. -/
def namedIsWritten (x : String × Expr) : Bool := isKeyName x.1 && x.2.isWritten

def Call.isWritten (c : Call) : Bool :=
  c.head.isWritten && c.args.all Expr.isWritten && c.named.all namedIsWritten

theorem Call.isWritten_iff {c : Call} : c.isWritten = true ↔ c.head.isWritten = true ∧
    (∀ e ∈ c.args, e.isWritten = true) ∧ ∀ x ∈ c.named, namedIsWritten x = true := by
  simp [Call.isWritten, and_assoc]

section Arguments

variable {e : Expr} {args : List Expr} {x : String × Expr} {named : List (String × Expr)}

theorem endsExpr_named (named : List (String × Expr)) (r : List Char) :
    EndsExpr (namedSource named ++ '\x7d' :: r) := by
  cases named <;> rfl

theorem endsExpr_args (args : List Expr) (named : List (String × Expr)) (r : List Char) :
    EndsExpr (argsSource args ++ (namedSource named ++ '\x7d' :: r)) := by
  cases args with
  | nil => exact endsExpr_named named r
  | cons e args => rfl

theorem dropWhile_source (he : e.isWritten = true) :
    (e.source ++ rest).dropWhile isBlankChar = e.source ++ rest := by
  obtain ⟨c, cs, hc, hstart⟩ := exists_source_cons he
  rw [hc]
  exact dropWhile_of_startsExpr hstart _

theorem dropWhile_args (he : e.isWritten = true) :
    (argsSource (e :: args) ++ rest).dropWhile isBlankChar =
      e.source ++ (argsSource args ++ rest) := by
  have hcons : argsSource (e :: args) ++ rest = ' ' :: (e.source ++ (argsSource args ++ rest)) := by
    simp [argsSource]
  rw [hcons, List.dropWhile_cons_of_pos rfl, dropWhile_source he]

theorem dropWhile_named (hx : namedIsWritten x = true) :
    (namedSource (x :: named) ++ rest).dropWhile isBlankChar =
      x.1.toList ++ '=' :: (x.2.source ++ (namedSource named ++ rest)) := by
  have hcons : namedSource (x :: named) ++ rest =
      ' ' :: (x.1.toList ++ '=' :: (x.2.source ++ (namedSource named ++ rest))) := by
    simp [namedSource]
  obtain ⟨c, cs, hc, hstart⟩ := exists_key_cons (Bool.and_eq_true _ _ ▸ hx).1
  rw [hcons, List.dropWhile_cons_of_pos rfl, hc]
  exact dropWhile_of_startsExpr hstart _

/-- What follows an argument does not start with an equals sign. -/
theorem head?_args (hargs : ∀ e ∈ args, e.isWritten = true)
    (hnamed : ∀ x ∈ named, namedIsWritten x = true) (r : List Char) :
    ((argsSource args ++ (namedSource named ++ '\x7d' :: r)).dropWhile isBlankChar).head? ≠
      some '=' := by
  cases args with
  | cons e args =>
    have he := hargs e List.mem_cons_self
    obtain ⟨c, cs, hc, hstart⟩ := exists_source_cons he
    rw [dropWhile_args he, hc]
    rintro ⟨⟩
    cases hstart
  | nil =>
    cases named with
    | cons x named =>
      have hx := hnamed x List.mem_cons_self
      obtain ⟨hne, hn, -⟩ := isKeyName_iff.1 (Bool.and_eq_true _ _ ▸ hx).1
      change ((namedSource (x :: named) ++ '\x7d' :: r).dropWhile isBlankChar).head? ≠ _
      rw [dropWhile_named hx]
      exact head?_name_append hne hn rfl
    | nil =>
      intro h
      cases h

theorem namedArgument_source (hx : namedIsWritten x = true) (hrest : EndsExpr rest) :
    namedArgument (x.1.toList ++ '=' :: (x.2.source ++ rest)) =
      some (x, rest.dropWhile isBlankChar) := by
  obtain ⟨hkey, hvalue⟩ : isKeyName x.1 = true ∧ x.2.isWritten = true :=
    Bool.and_eq_true _ _ ▸ hx
  obtain ⟨hne, hn, -⟩ := isKeyName_iff.1 hkey
  obtain ⟨r, hr, hdrop⟩ := expr_source hvalue hrest
  have hend : EndsName ('=' :: (x.2.source ++ rest)) := rfl
  have hequals : exactly ['='] ('=' :: (x.2.source ++ rest)) = some ((), x.2.source ++ rest) := rfl
  have hbefore : ('=' :: (x.2.source ++ rest)).dropWhile isBlankChar =
      '=' :: (x.2.source ++ rest) := rfl
  unfold namedArgument
  rw [bind_apply, name_append hne hn hend, Option.bind_some, bind_apply, blanks_apply,
    Option.bind_some, bind_apply, hbefore, hequals, Option.bind_some, bind_apply, blanks_apply,
    Option.bind_some, dropWhile_source hvalue, bind_apply, hr, Option.bind_some, bind_apply,
    blanks_apply, Option.bind_some, hdrop, pure_apply, String.ofList_toList]

theorem namedArgument_of_endsName {s : List Char} (h : EndsName s) : namedArgument s = none := by
  unfold namedArgument
  rw [bind_apply, name_eq_none h]
  rfl

theorem namedArgument_of_name {n : List Char} (hne : n ≠ []) (hn : n.all isNameChar = true)
    (hrest : EndsExpr rest) (hequals : (rest.dropWhile isBlankChar).head? ≠ some '=') :
    namedArgument (n ++ rest) = none := by
  unfold namedArgument
  rw [bind_apply, name_append hne hn hrest.endsName, Option.bind_some, bind_apply, blanks_apply,
    Option.bind_some, bind_apply, exactly_eq_none hequals]
  rfl

theorem namedArgument_of_source (he : e.isWritten = true) (hrest : EndsExpr rest)
    (hequals : (rest.dropWhile isBlankChar).head? ≠ some '=') :
    namedArgument (e.source ++ rest) = none := by
  induction e, he using Expr.written_cases with
  | word s hs => exact namedArgument_of_endsName rfl
  | this =>
    have hn : ['t', 'h', 'i', 's'].all isNameChar = true := by decide
    exact namedArgument_of_name (List.cons_ne_nil _ _) hn hrest hequals
  | key k hk =>
    obtain ⟨hne, hn, -⟩ := isKeyName_iff.1 hk
    exact namedArgument_of_name hne hn hrest hequals
  | outer up k hk => exact namedArgument_of_endsName rfl
  | mark n => exact namedArgument_of_endsName rfl

theorem notNamed_of_none {s : List Char} (h : namedArgument s = none) :
    call.notNamed s = some ((), s) := by
  unfold call.notNamed
  rw [h]

theorem notNamed_of_some {s : List Char} {y : (String × Expr) × List Char}
    (h : namedArgument s = some y) : call.notNamed s = none := by
  unfold call.notNamed
  rw [h]

def argument : Parser Expr := do
  call.notNamed
  let e ← expr
  blanks
  return e

theorem argument_source (he : e.isWritten = true) (hrest : EndsExpr rest)
    (hequals : (rest.dropWhile isBlankChar).head? ≠ some '=') :
    argument (e.source ++ rest) = some (e, rest.dropWhile isBlankChar) := by
  obtain ⟨r, hr, hdrop⟩ := expr_source he hrest
  unfold argument
  rw [bind_apply, notNamed_of_none (namedArgument_of_source he hrest hequals), Option.bind_some,
    bind_apply, hr, Option.bind_some, bind_apply, blanks_apply, Option.bind_some, hdrop, pure_apply]

/-- At the end of the arguments by position there is an argument by name, or the end of the
call. -/
theorem argument_eq_none (hnamed : ∀ x ∈ named, namedIsWritten x = true) (r : List Char) :
    argument ((namedSource named ++ '\x7d' :: r).dropWhile isBlankChar) = none := by
  unfold argument
  rw [bind_apply]
  cases named with
  | cons x named =>
    have hx := hnamed x List.mem_cons_self
    rw [dropWhile_named hx, notNamed_of_some (namedArgument_source hx (endsExpr_named named r))]
    rfl
  | nil =>
    have hname : namedArgument ('\x7d' :: r) = none := namedArgument_of_endsName rfl
    change (call.notNamed ('\x7d' :: r)).bind _ = none
    rw [notNamed_of_none hname, Option.bind_some, bind_apply, expr_end]
    rfl

theorem many_argument (hargs : ∀ e ∈ args, e.isWritten = true)
    (hnamed : ∀ x ∈ named, namedIsWritten x = true) (r : List Char) :
    many argument ((argsSource args ++ (namedSource named ++ '\x7d' :: r)).dropWhile isBlankChar) =
      some (args, (namedSource named ++ '\x7d' :: r).dropWhile isBlankChar) := by
  refine many_of_text
    (fun es => (argsSource es ++ (namedSource named ++ '\x7d' :: r)).dropWhile isBlankChar)
    (fun e es he hes => ⟨?_, ?_⟩) (argument_eq_none hnamed r) hargs
  · rw [dropWhile_args he]
    exact argument_source he (endsExpr_args es named r) (head?_args hes hnamed r)
  · obtain ⟨c, cs, hc, -⟩ := exists_source_cons he
    rw [dropWhile_args he]
    refine length_dropWhile_lt ?_
    simp only [hc, List.length_append, List.length_cons]
    omega

theorem many_namedArgument (hnamed : ∀ x ∈ named, namedIsWritten x = true) (r : List Char) :
    many namedArgument ((namedSource named ++ '\x7d' :: r).dropWhile isBlankChar) =
      some (named, '\x7d' :: r) := by
  refine many_of_text (fun xs => (namedSource xs ++ '\x7d' :: r).dropWhile isBlankChar)
    (fun x xs hx _ => ⟨?_, ?_⟩) (namedArgument_of_endsName rfl) hnamed
  · rw [dropWhile_named hx]
    exact namedArgument_source hx (endsExpr_named xs r)
  · rw [dropWhile_named hx]
    refine length_dropWhile_lt ?_
    simp only [List.length_append, List.length_cons]
    omega

/-- **A call is read as it is written.** -/
theorem call_source {c : Call} (hc : c.isWritten = true) (r : List Char) :
    call (c.source ++ '\x7d' :: r) = some (c, '\x7d' :: r) := by
  obtain ⟨hhead, hargs, hnamed⟩ := Call.isWritten_iff.1 hc
  obtain ⟨r', hr', hdrop⟩ := expr_source hhead (endsExpr_args c.args c.named r)
  have hsource : c.source ++ '\x7d' :: r =
      c.head.source ++ (argsSource c.args ++ (namedSource c.named ++ '\x7d' :: r)) := by
    simp [Call.source]
  rw [hsource]
  unfold call
  rw [bind_apply, blanks_apply, Option.bind_some, dropWhile_source hhead, bind_apply, hr',
    Option.bind_some, bind_apply, blanks_apply, Option.bind_some, hdrop, bind_apply]
  change (many argument _).bind _ = _
  rw [many_argument hargs hnamed, Option.bind_some, bind_apply, many_namedArgument hnamed]
  rfl

end Arguments

/-! ## Reading tags -/

/-- How a tag is written.  Comments, and second parts that are a block, are left out. -/
def Tag.source : Tag → List Char
  | fill c => ['\x7b', '\x7b'] ++ c.source ++ ['\x7d', '\x7d']
  | openBlock c => ['\x7b', '\x7b', '#'] ++ c.source ++ ['\x7d', '\x7d']
  | divide => ['\x7b', '\x7b', 'e', 'l', 's', 'e', '\x7d', '\x7d']
  | closeBlock n => ['\x7b', '\x7b', '/'] ++ n.toList ++ ['\x7d', '\x7d']
  | comment | divideOpen _ => []

def Tag.isWritten : Tag → Bool
  | fill c | openBlock c => c.isWritten
  | divide => true
  | closeBlock n => isKeyName n
  | comment | divideOpen _ => false

section Marks

variable {m : String} {c d : Char} (hm : m.toList = [c])

include hm

theorem mark_eq_none (hd : isBlankChar d = false) (hcd : d ≠ c) (s : List Char) :
    tagBody.mark m (d :: s) = none := by
  have hhead : (d :: s).head? ≠ some c := fun h => hcd (Option.some.inj h)
  unfold tagBody.mark
  rw [bind_apply, blanks_apply, List.dropWhile_cons_of_neg (by simp [hd]), Option.bind_some,
    bind_apply, hm, exactly_eq_none hhead]
  rfl

theorem mark_cons (hc : isBlankChar c = false) (hd : isBlankChar d = false) (s : List Char) :
    tagBody.mark m (c :: d :: s) = some ((), d :: s) := by
  have hexactly : exactly [c] (c :: d :: s) = some ((), d :: s) := by simp [exactly, dropLead?]
  unfold tagBody.mark
  rw [bind_apply, blanks_apply, List.dropWhile_cons_of_neg (by simp [hc]), Option.bind_some,
    bind_apply, hm, hexactly, Option.bind_some, blanks_apply,
    List.dropWhile_cons_of_neg (by simp [hd])]

end Marks

theorem otherwise_of_ne {c : Char} (hc : isBlankChar c = false) (he : c ≠ 'e') (s : List Char) :
    otherwise (c :: s) = none := by
  have hhead : (c :: s).head? ≠ some 'e' := fun h => he (Option.some.inj h)
  have helse : "else".toList = ['e', 'l', 's', 'e'] := rfl
  unfold otherwise
  rw [bind_apply, blanks_apply, List.dropWhile_cons_of_neg (by simp [hc]), Option.bind_some,
    bind_apply, helse, exactly_eq_none hhead]
  rfl

/-- No key is taken for the word that divides a block. -/
theorem otherwise_key {k : String} (hk : isKeyName k = true) (hrest : EndsExpr rest) :
    otherwise (k.toList ++ rest) = none := by
  obtain ⟨hne, hn, -, hreserved⟩ := isKeyName_iff.1 hk
  have hblanks : (k.toList ++ rest).dropWhile isBlankChar = k.toList ++ rest :=
    dropWhile_source (e := .path 0 [k]) hk
  have helse : "else".toList = ['e', 'l', 's', 'e'] := rfl
  unfold otherwise exactly
  rw [bind_apply, blanks_apply, hblanks, Option.bind_some, bind_apply, helse]
  cases hdrop : dropLead? ['e', 'l', 's', 'e'] (k.toList ++ rest) with
  | none => rfl
  | some s =>
    have hs : k.toList ++ rest = ['e', 'l', 's', 'e'] ++ s := eq_append_of_dropLead? hdrop
    -- Otherwise the key would be the word itself.
    have hgoes : ¬ EndsName s := by
      intro hend
      have htake := (takeWhile_append_end hn hrest.endsName).1
      rw [hs, (takeWhile_append_end (by decide) hend).1] at htake
      have hkelse : k = "else" := String.toList_inj.1 htake.symm
      exact hreserved (hkelse ▸ by decide)
    rw [Option.map_some, Option.bind_some, bind_apply]
    cases s with
    | nil => exact absurd rfl hgoes
    | cons d s =>
      have hd : isNameChar d = true := by
        by_contra hne
        exact hgoes (by simpa [EndsName] using hne)
      rw [notBefore, if_pos hd]
      rfl

theorem otherwise_source {e : Expr} (he : e.isWritten = true) (hrest : EndsExpr rest) :
    otherwise (e.source ++ rest) = none := by
  induction e, he using Expr.written_cases with
  | word s hs => exact otherwise_of_ne rfl (by decide) _
  | this => exact otherwise_of_ne rfl (by decide) _
  | key k hk => exact otherwise_key hk hrest
  | outer up k hk => exact otherwise_of_ne rfl (by decide) _
  | mark n => exact otherwise_of_ne rfl (by decide) _

section Body

variable {c : Call} (hc : c.isWritten = true) (r : List Char)

include hc

theorem exists_call_cons : ∃ d s, c.source ++ r = d :: s ∧ startsExpr d = true := by
  obtain ⟨hhead, -, -⟩ := Call.isWritten_iff.1 hc
  obtain ⟨d, s, hd, hstart⟩ := exists_source_cons hhead
  refine ⟨d, s ++ (argsSource c.args ++ namedSource c.named) ++ r, ?_, hstart⟩
  rw [Call.source, hd]
  rfl

theorem tagBody_fill : tagBody (c.source ++ '\x7d' :: r) = some (.fill c, '\x7d' :: r) := by
  obtain ⟨hhead, -, -⟩ := Call.isWritten_iff.1 hc
  obtain ⟨d, s, hcons, hd⟩ := exists_call_cons hc ('\x7d' :: r)
  have hmark : ∀ {m : String} {a : Char}, m.toList = [a] → startsExpr a = false →
      tagBody.mark m (c.source ++ '\x7d' :: r) = none := by
    intro m a hm ha
    rw [hcons]
    exact mark_eq_none hm (not_isBlankChar_of_startsExpr hd)
      (fun h => Bool.false_ne_true (ha.symm.trans (h ▸ hd))) s
  have hno : otherwise (c.source ++ '\x7d' :: r) = none := by
    rw [Call.source, List.append_assoc, List.append_assoc]
    exact otherwise_source hhead (endsExpr_args c.args c.named r)
  unfold tagBody Parser.optional
  rw [orElse_apply, bind_apply, hmark (a := '#') rfl rfl, Option.bind_none, Option.none_or,
    orElse_apply, bind_apply, hmark (a := '/') rfl rfl, Option.bind_none, Option.none_or,
    orElse_apply, bind_apply, hmark (a := '^') rfl rfl, Option.bind_none, Option.none_or,
    orElse_apply, bind_apply, hno, Option.bind_none, Option.none_or, orElse_apply, bind_apply, hno,
    Option.bind_none, Option.none_or, bind_apply, orElse_apply, map_apply,
    hmark (a := '&') rfl rfl, Option.map_none, Option.none_or, pure_apply, Option.bind_some,
    bind_apply, call_source hc]
  rfl

theorem tagBody_open :
    tagBody ('#' :: (c.source ++ '\x7d' :: r)) = some (.openBlock c, '\x7d' :: r) := by
  obtain ⟨d, s, hcons, hd⟩ := exists_call_cons hc ('\x7d' :: r)
  have hmark : tagBody.mark "#" ('#' :: (c.source ++ '\x7d' :: r)) =
      some ((), c.source ++ '\x7d' :: r) := by
    rw [hcons]
    exact mark_cons rfl rfl (not_isBlankChar_of_startsExpr hd) s
  unfold tagBody
  rw [orElse_apply, bind_apply, hmark, Option.bind_some, bind_apply, call_source hc]
  rfl

end Body

theorem tagBody_close {n : String} (hn : isKeyName n = true) (r : List Char) :
    tagBody ('/' :: (n.toList ++ '\x7d' :: r)) = some (.closeBlock n, '\x7d' :: r) := by
  obtain ⟨hne, hname, -⟩ := isKeyName_iff.1 hn
  obtain ⟨c, cs, hc, hstart⟩ := exists_key_cons hn
  have hmark : tagBody.mark "/" ('/' :: (n.toList ++ '\x7d' :: r)) =
      some ((), n.toList ++ '\x7d' :: r) := by
    rw [hc]
    exact mark_cons rfl rfl (not_isBlankChar_of_startsExpr hstart) _
  have hend : EndsName ('\x7d' :: r) := rfl
  unfold tagBody
  rw [orElse_apply, bind_apply, mark_eq_none rfl rfl (by decide), Option.bind_none, Option.none_or,
    orElse_apply, bind_apply, hmark, Option.bind_some, bind_apply, name_append hne hname hend,
    String.ofList_toList]
  rfl

/-- A tag that is no comment is read by what stands between its braces. -/
theorem tag_of_body {c : Char} {t : Tag} {s : List Char} (hc : c ≠ '!') (hc' : c ≠ '\x7b')
    (h : tagBody (c :: s) = some (t, '\x7d' :: '\x7d' :: rest)) :
    tag ('\x7b' :: '\x7b' :: c :: s) = some (t, rest) := by
  have hnone : ∀ {d : Char} {w : List Char}, c ≠ d →
      exactly ('\x7b' :: '\x7b' :: d :: w) ('\x7b' :: '\x7b' :: c :: s) = none := by
    intro d w hd
    have hdrop : dropLead? (d :: w) (c :: s) = none := if_neg (Ne.symm hd)
    change (dropLead? (d :: w) (c :: s)).map _ = none
    rw [hdrop]
    rfl
  have hlong : "\x7b\x7b!--".toList = ['\x7b', '\x7b', '!', '-', '-'] := rfl
  have hshort : "\x7b\x7b!".toList = ['\x7b', '\x7b', '!'] := rfl
  have hthree : "\x7b\x7b\x7b".toList = ['\x7b', '\x7b', '\x7b'] := rfl
  have hopen : exactly "\x7b\x7b".toList ('\x7b' :: '\x7b' :: c :: s) = some ((), c :: s) := rfl
  have hclose : exactly "\x7d\x7d".toList ('\x7d' :: '\x7d' :: rest) = some ((), rest) := rfl
  unfold tag
  rw [orElse_apply, bind_apply, hlong, hnone hc, Option.bind_none, Option.none_or, orElse_apply,
    bind_apply, hshort, hnone hc, Option.bind_none, Option.none_or, orElse_apply, bind_apply,
    hthree, hnone hc', Option.bind_none, Option.none_or, bind_apply, hopen, Option.bind_some,
    bind_apply, h, Option.bind_some, bind_apply, hclose]
  rfl

/-- **A tag is read as it is written.** -/
theorem tag_source {t : Tag} (ht : t.isWritten = true) (rest : List Char) :
    tag (t.source ++ rest) = some (t, rest) := by
  cases t with
  | fill c =>
    obtain ⟨d, s, hcons, hd⟩ := exists_call_cons ht ('\x7d' :: '\x7d' :: rest)
    have hbody := tagBody_fill ht ('\x7d' :: rest)
    have hsource : (Tag.fill c).source ++ rest =
        '\x7b' :: '\x7b' :: (c.source ++ '\x7d' :: '\x7d' :: rest) := by simp [Tag.source]
    rw [hcons] at hbody
    rw [hsource, hcons]
    exact tag_of_body (by rintro rfl; cases hd) (by rintro rfl; cases hd) hbody
  | openBlock c =>
    have hsource : (Tag.openBlock c).source ++ rest =
        '\x7b' :: '\x7b' :: '#' :: (c.source ++ '\x7d' :: '\x7d' :: rest) := by simp [Tag.source]
    rw [hsource]
    exact tag_of_body (by decide) (by decide) (tagBody_open ht _)
  | closeBlock n =>
    have hsource : (Tag.closeBlock n).source ++ rest =
        '\x7b' :: '\x7b' :: '/' :: (n.toList ++ '\x7d' :: '\x7d' :: rest) := by simp [Tag.source]
    rw [hsource]
    exact tag_of_body (by decide) (by decide) (tagBody_close ht _)
  | divide => exact tag_of_body (by decide) (by decide) rfl
  | comment => cases ht
  | divideOpen c => cases ht

/-! ## Reading texts and tags -/

/-- Tells whether a text in front of a tag is read as it is written: nothing in it starts a tag,
and nothing takes the tag behind it for text. -/
def isPlainText : List Char → Bool
  | [] => true
  | [c] => c != '\\' && c != '\x7b'
  | c :: d :: s => c != '\\' && !(c == '\x7b' && d == '\x7b') && isPlainText (d :: s)

def rowsSource (rows : List (Tag × List Char)) : List Char :=
  rows.flatMap fun x => x.1.source ++ x.2

/-- What stands behind a text: a tag, or nothing. -/
def EndsText (rest : List Char) : Prop := rest = [] ∨ ∃ r, rest = '\x7b' :: '\x7b' :: r

theorem Tag.exists_source_append {t : Tag} (ht : t.isWritten = true) (s : List Char) :
    ∃ r, t.source ++ s = '\x7b' :: '\x7b' :: r := by
  cases t with
  | fill c => exact ⟨_, rfl⟩
  | openBlock c => exact ⟨_, rfl⟩
  | closeBlock n => exact ⟨_, rfl⟩
  | divide => exact ⟨_, rfl⟩
  | comment => cases ht
  | divideOpen c => cases ht

theorem go_cons {c : Char} {s : List Char} (hc : c ≠ '\\')
    (hs : c = '\x7b' → s.head? ≠ some '\x7b') :
    plainText.go (c :: s) = (c :: (plainText.go s).1, (plainText.go s).2) := by
  rw [plainText.go.eq_def]
  split
  · next heq =>
    cases heq
    exact absurd rfl hc
  · next heq =>
    cases heq
    exact absurd rfl (hs rfl)
  · next heq =>
    cases heq
    rfl
  · next heq => cases heq

theorem go_of_endsText (h : EndsText rest) : plainText.go rest = ([], rest) := by
  rcases h with rfl | ⟨r, rfl⟩ <;> rfl

theorem go_append {s : List Char} (hs : isPlainText s = true) (hrest : EndsText rest) :
    plainText.go (s ++ rest) = (s, rest) := by
  induction s with
  | nil => exact go_of_endsText hrest
  | cons c s ih =>
    cases s with
    | nil =>
      have hc : c ≠ '\\' ∧ c ≠ '\x7b' := by simpa [isPlainText] using hs
      rw [List.singleton_append, go_cons hc.1 fun he => absurd he hc.2, go_of_endsText hrest]
    | cons d s =>
      have hc : (c ≠ '\\' ∧ (c = '\x7b' → d ≠ '\x7b')) ∧ isPlainText (d :: s) = true := by
        simpa [isPlainText, imp_iff_not_or] using hs
      have hhead : c = '\x7b' → (d :: s ++ rest).head? ≠ some '\x7b' := fun he hd =>
        hc.1.2 he (Option.some.inj hd)
      rw [List.cons_append, go_cons hc.1.1 hhead, ih hc.2]

section Rows

variable {first : List Char} {rows : List (Tag × List Char)} (hfirst : isPlainText first = true)
  (hrows : ∀ x ∈ rows, x.1.isWritten = true ∧ isPlainText x.2 = true)

theorem rowsSource_cons (x : Tag × List Char) (rows : List (Tag × List Char)) :
    rowsSource (x :: rows) = x.1.source ++ (x.2 ++ rowsSource rows) := by
  simp [rowsSource]

include hrows in
theorem endsText_rows : EndsText (rowsSource rows) := by
  cases rows with
  | nil => exact .inl rfl
  | cons x rows =>
    rw [rowsSource_cons]
    exact .inr (Tag.exists_source_append (hrows x List.mem_cons_self).1 _)

def row : Parser (Tag × List Char) := do
  let t ← tag
  return (t, ← plainText)

include hrows in
theorem many_row : many row (rowsSource rows) = some (rows, []) := by
  refine many_of_text rowsSource (fun x xs hx hxs => ⟨?_, ?_⟩) rfl hrows
  · unfold row plainText
    rw [rowsSource_cons, bind_apply, tag_source hx.1, Option.bind_some, bind_apply,
      go_append hx.2 (endsText_rows hxs)]
    rfl
  · obtain ⟨r, hr⟩ := Tag.exists_source_append hx.1 []
    have hsource : x.1.source = '\x7b' :: '\x7b' :: r := by rw [← hr, List.append_nil]
    rw [rowsSource_cons, hsource]
    simp only [List.length_append, List.length_cons]
    omega

include hfirst hrows

/-- **Texts and tags are read as they are written.** -/
theorem tags_source : tags (first ++ rowsSource rows) = some ((first, rows), []) := by
  unfold tags plainText
  rw [bind_apply, go_append hfirst (endsText_rows hrows), Option.bind_some, bind_apply]
  change (many row (rowsSource rows)).bind _ = _
  rw [many_row hrows]
  rfl

/-- **A source text is read by the texts and the tags that it is made of.** -/
theorem parse?_rows : parse? (String.ofList (first ++ rowsSource rows)) =
    assemble (textPiece (trimLines true first first rows).1).reverse []
      (trimLines true first first rows).2 := by
  unfold parse? wholly
  rw [String.toList_ofList, tags_source hfirst hrows]
  rfl

end Rows

end IdlDocs.Templates
