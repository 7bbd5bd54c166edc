import IdlDocs.Idl.Equality
import IdlDocs.Proofs.Idl.Mixins.Members

/-!
# The same members in an interface and in a mixin

A text of members is put between the braces of an interface, and between those of a mixin.  Where
both sources are read, they have as many members, in the same order, and each two of them belong
together.

* `inInterface`, `inMixin`: the two sources.
* `inMixin_of_bodies`: **the members between two braces.**
* `definition_of_interface_word`: what may be read behind the word `interface`.
* `members_in_mixin`: **the members of the two sources.**
* `stringifier_lost_in_mixin`: two members that are not the same.
-/

namespace IdlDocs.Idl

open Text Text.Parser

variable {α : Type} {n : Nat} {s r r' : List Char} {X name : String} {ms ms' : List Member}
  {ts : List Token}

/-! ## Bodies -/

/-- **The members between two braces**, read in an interface and in a mixin. -/
theorem inMixin_of_bodies (h : body (interfaceMember (levelAt (n + 1))) s = some (ms, r))
    (h' : body (mixinMember (levelAt (n + 1))) s = some (ms', r')) :
    r' = r ∧ List.Forall₂ Member.InMixin ms ms' := by
  obtain ⟨u, x, hopen, h⟩ := bind_eq_some h
  obtain ⟨as, y, hmany, h⟩ := bind_eq_some h
  obtain ⟨v, z, hclose, h⟩ := bind_eq_some h
  obtain ⟨u', x', hopen', h'⟩ := bind_eq_some h'
  obtain ⟨as', y', hmany', h'⟩ := bind_eq_some h'
  obtain ⟨v', z', hclose', h'⟩ := bind_eq_some h'
  obtain rfl : x = x' := congrArg Prod.snd (Option.some.inj (hopen.symm.trans hopen'))
  have hitems := Option.some.inj hmany
  have hitems' := Option.some.inj hmany'
  obtain ⟨hend, rfl⟩ := (mark_eq_some_iff (m := "\x7d") rfl (by decide)).1 hclose
  obtain ⟨hend', rfl⟩ := (mark_eq_some_iff (m := "\x7d") rfl (by decide)).1 hclose'
  have hagree := items_agree (E := fun s => (tokens s).head? = some (.mark '\x7d'))
    (fun s m r m' r' h h' => inMixin_of_members h h')
    (fun s hs => ⟨interfaceMember_eq_none hs, mixinMember_eq_none hs (by decide)⟩)
    (s := x) (by rw [hitems]; exact hend) (by rw [hitems']; exact hend')
  rw [hitems, hitems'] at hagree
  obtain ⟨rfl, hmembers⟩ := hagree
  obtain ⟨w, t, hsemicolon, h⟩ := bind_eq_some h
  rw [bind_of_some hsemicolon] at h'
  cases h
  cases h'
  exact ⟨rfl, hmembers⟩

/-! ## Words in front of a brace -/

def headed : List String → List Char → List Char
  | [], u => '\x7b' :: u
  | w :: ws, u => w.toList ++ ' ' :: headed ws u

section Headed

variable {w v : String} {ws : List String} {u : List Char}

theorem skipBlank_headed (hws : ∀ w ∈ ws, IsWord w) (u : List Char) :
    skipBlank (headed ws u) = headed ws u := by
  cases ws with
  | nil => exact skipBlank_of_stop (afterComment?_of_ne (by decide)) (by decide)
  | cons w ws => exact skipBlank_word_append (hws w List.mem_cons_self) _

theorem head?_headed_nil (u : List Char) : (tokens (headed [] u)).head? = some (.mark '\x7b') := by
  rw [headed, tokens_mark_cons (by decide)]
  rfl

theorem fillWildcards_headed (hws : ∀ w ∈ ws, IsWord w) (u : List Char) :
    fillWildcards (headed ws u) = headed ws (fillWildcards u) := by
  induction ws with
  | nil => exact fillWildcards_of_ne (by decide)
  | cons w ws ih =>
    have hequals : ¬ ['=', '*'] <:+: w.toList := by
      intro hinfix
      have hmem : '=' ∈ w.toList := hinfix.subset List.mem_cons_self
      have hchar := List.all_eq_true.1 (hws w List.mem_cons_self).2 '=' hmem
      exact absurd hchar (by decide)
    rw [headed, fillWildcards_append (by simp), fillWildcards_eq_self hequals,
      fillWildcards_of_ne (by decide), ih fun v hv => hws v (List.mem_cons_of_mem w hv)]
    rfl

variable (hws : ∀ v ∈ w :: ws, IsWord v)

include hws

theorem head?_headed (u : List Char) : (tokens (headed (w :: ws) u)).head? = some (.word w) := by
  rw [headed, tokens_word_append (hws w List.mem_cons_self) rfl]
  rfl

theorem after_headed (u : List Char) : after (headed (w :: ws) u) = headed ws u := by
  rw [headed, after_word_append (hws w List.mem_cons_self) rfl, skipBlank_of_space (by decide)]
  exact skipBlank_headed (fun v hv => hws v (List.mem_cons_of_mem w hv)) u

theorem keyword_headed (u : List Char) :
    keyword w (headed (w :: ws) u) = some ((), headed ws u) :=
  (keyword_eq_some_iff (hws w List.mem_cons_self)).2
    ⟨head?_headed hws u, (after_headed hws u).symm⟩

theorem keyword_headed_of_ne (hv : IsWord v) (hne : v ≠ w) (u : List Char) :
    keyword v (headed (w :: ws) u) = none := by
  refine keyword_eq_none hv ?_
  rw [head?_headed hws]
  simpa using hne.symm

theorem identifier_headed (hname : nameOf? w = some name) (u : List Char) :
    identifier (headed (w :: ws) u) = some (name, headed ws u) := by
  rw [identifier_apply, head?_headed hws, after_headed hws, Option.bind_some, Token.name?, hname]
  rfl

end Headed

theorem isBlankText_interface (ws : List String) (u : List Char) :
    isBlankText (headed ("interface" :: ws) u) = false := by
  have hchars : headed ("interface" :: ws) u = 'i' :: ("nterface".toList ++ ' ' :: headed ws u) :=
    rfl
  rw [hchars, isBlankText_cons _ (by decide)]
  rfl

/-! ## Definitions behind the word `interface` -/

theorem parent_apply (h : (tokens s).head? ≠ some (.mark ':')) : parent s = some (none, s) := by
  have hcolon : mark ":" s = none := mark_eq_none (m := ":") (c := ':') rfl (by decide) h
  exact optional_apply_of_none (bind_eq_none hcolon _)

/-- Behind the word `interface`, an interface, a mixin or one of the two statements is read. -/
theorem definition_of_interface_word (h : (tokens s).head? = some (.word "interface")) :
    definition (levelAt n) s =
      ((some <$> interfaceDefinition (levelAt n)) <|>
        (some <$> mixinDefinition (levelAt n) false) <|>
        (do let (target, mixin) ← statement (levelAt n) "includes"
            return some (.includes target mixin)) <|>
        (do let _ ← statement (levelAt n) "implements"; return none)) s := by
  have hkeep {p q q' : Parser (Option Definition)} (hq : q s = q' s) :
      (p <|> q) s = (p <|> q') s := by rw [orElse_apply, orElse_apply, hq]
  have hattributed {f : List String → Parser Definition} (hf : f [] s = none) :
      (attributesOf (levelAt n) >>= f) s = none := attributed_eq_none h nofun hf
  have hword {v : String} {f : Unit → Parser Definition} (hv : IsWord v)
      (hne : Token.word "interface" ≠ .word v) : (keyword v >>= f) s = none :=
    keyword_refused h hv hne
  refine orElse_of_none (map_eq_none (hattributed (hword (by decide) (by decide)))) ?_
  refine orElse_of_none (map_eq_none ?_) ?_
  · exact documented_eq_none h nofun (hattributed (hword (by decide) (by decide)))
  refine hkeep (hkeep ?_)
  refine orElse_of_none (map_eq_none ?_) (orElse_of_none (map_eq_none ?_)
    (orElse_of_none (map_eq_none ?_) (orElse_of_none (map_eq_none ?_)
      (orElse_of_none (map_eq_none ?_) (orElse_of_none (map_eq_none ?_)
        (orElse_of_none (map_eq_none ?_) (orElse_of_none (map_eq_none ?_) rfl)))))))
  · rw [seqRight_eq_bind]
    exact documented_eq_none h nofun (plainInterface_eq_none h nofun (by decide) (by decide))
  · exact documented_eq_none h nofun (hattributed (hword (by decide) (by decide)))
  · exact plainInterface_eq_none h nofun (by decide) (by decide)
  · exact plainInterface_eq_none h nofun (by decide) (by decide)
  · exact hattributed (hword (by decide) (by decide))
  · exact plainInterface_eq_none h nofun (by decide) (by decide)
  · exact documented_eq_none h nofun (hattributed (hword (by decide) (by decide)))
  · exact hattributed (hword (by decide) (by decide))

theorem mixinDefinition_eq (inner : Level) :
    mixinDefinition inner false = (do
      let attributes ← attributesOf inner
      keyword "interface"
      keyword "mixin"
      let name ← identifier
      let members ← body (mixinMember inner)
      return .interface { name, kind := .mixin, attributes, members }) := by
  have hwords : ["interface", "mixin"].forM keyword = (do keyword "interface"; keyword "mixin") :=
    congrArg (keyword "interface" >>= ·) (funext fun _ => bind_pure_unit)
  simp [mixinDefinition, plainInterface, hwords, bind_assoc]

/-- What is read behind the word `interface`, where no verb of a statement follows. -/
theorem definition_headed {ws : List String} (hws : ∀ w ∈ "interface" :: ws, IsWord w)
    {u : List Char} {o : Option Definition}
    (hverb : ∀ v ∈ ["includes", "implements"], ∀ f : String → Parser (String × String),
      (do keyword v; let right ← identifier; f right) (headed ws u) = none)
    (h : definition (levelAt n) (headed ("interface" :: ws) u) = some (o, r)) :
    ∃ d, o = some d ∧
      ((do
          let name ← identifier
          let parent ← parent
          let members ← body (interfaceMember (levelAt n))
          return Definition.interface { name, parent, members }) (headed ws u) = some (d, r) ∨
        (do
          keyword "mixin"
          let name ← identifier
          let members ← body (mixinMember (levelAt n))
          return Definition.interface { name, kind := .mixin, members }) (headed ws u) =
            some (d, r)) := by
  have hhead := head?_headed hws u
  have hname : nameOf? "interface" = some "interface" := by decide
  have hdocs : docs (headed ("interface" :: ws) u) = some ((), headed ("interface" :: ws) u) :=
    docs_apply (by rw [hhead]; nofun)
  have hattributes : attributesOf (levelAt n) (headed ("interface" :: ws) u) =
      some ([], headed ("interface" :: ws) u) := attributesOf_apply n (by rw [hhead]; nofun)
  have hstatement {v : String} (hv : v ∈ ["includes", "implements"]) :
      statement (levelAt n) v (headed ("interface" :: ws) u) = none := by
    unfold statement
    rw [bind_of_some hattributes, bind_of_some (identifier_headed hws hname u)]
    exact hverb v hv _
  rw [definition_of_interface_word hhead] at h
  rcases orElse_eq_some h with h | ⟨-, h⟩
  · obtain ⟨d, hd, rfl⟩ := map_eq_some h
    unfold interfaceDefinition at hd
    rw [bind_of_some hdocs, bind_of_some hattributes, bind_of_some (keyword_headed hws u)] at hd
    exact ⟨d, rfl, .inl hd⟩
  rcases orElse_eq_some h with h | ⟨-, h⟩
  · obtain ⟨d, hd, rfl⟩ := map_eq_some h
    rw [mixinDefinition_eq, bind_of_some hattributes, bind_of_some (keyword_headed hws u)] at hd
    exact ⟨d, rfl, .inr hd⟩
  rcases orElse_eq_some h with h | ⟨-, h⟩
  · rw [bind_eq_none (hstatement (by simp))] at h
    cases h
  · rw [bind_eq_none (hstatement (by simp))] at h
    cases h

section Sources

variable (hX : IsWord X) (hname : nameOf? X = some name)

def inInterface (X s : String) : String := "interface " ++ X ++ " \x7b" ++ s ++ "\x7d;"

def inMixin (X s : String) : String := "interface mixin " ++ X ++ " \x7b" ++ s ++ "\x7d;"

theorem toList_inInterface (X s : String) :
    (inInterface X s).toList = headed ["interface", X] (s.toList ++ "\x7d;".toList) := by
  have hfront : "interface ".toList = "interface".toList ++ [' '] := by decide
  have hopen : " \x7b".toList = [' ', '\x7b'] := by decide
  unfold inInterface
  simp only [String.toList_append]
  rw [hfront, hopen, headed, headed, headed]
  simp only [List.append_assoc, List.cons_append, List.nil_append]

theorem toList_inMixin (X s : String) :
    (inMixin X s).toList = headed ["interface", "mixin", X] (s.toList ++ "\x7d;".toList) := by
  have hfront : "interface mixin ".toList =
      "interface".toList ++ ' ' :: ("mixin".toList ++ [' ']) := by decide
  have hopen : " \x7b".toList = [' ', '\x7b'] := by decide
  unfold inMixin
  simp only [String.toList_append]
  rw [hfront, hopen, headed, headed, headed, headed]
  simp only [List.append_assoc, List.cons_append, List.nil_append]

/-- What is left of a word where a keyword is asked for, and a name behind it. -/
theorem keyword_identifier_eq_none {v w : String} (hw : IsWord w) (hv : IsWord v)
    {f : String → Parser α} (u : List Char) :
    (do keyword v; let name ← identifier; f name) (headed [w] u) = none := by
  have hws : ∀ v ∈ [w], IsWord v := by simpa using hw
  by_cases hvw : v = w
  · subst hvw
    rw [bind_of_some (keyword_headed hws u)]
    exact bind_eq_none (identifier_eq_none (head?_headed_nil u)) _
  · exact bind_eq_none (keyword_headed_of_ne hws hv hvw u) _

include hX

theorem words_interface : ∀ w ∈ ["interface", X], IsWord w := by
  have hinterface : IsWord "interface" := by decide
  simp [hinterface, hX]

theorem words_mixin : ∀ w ∈ ["interface", "mixin", X], IsWord w := by
  have hinterface : IsWord "interface" := by decide
  have hmixin : IsWord "mixin" := by decide
  simp [hinterface, hmixin, hX]

include hname

theorem definition_headed_interface {u : List Char} {o : Option Definition}
    (h : definition (levelAt n) (headed ["interface", X] u) = some (o, r)) :
    ∃ ms, o = some (.interface { name, members := ms }) ∧
      body (interfaceMember (levelAt n)) (headed [] u) = some (ms, r) := by
  have hX' : ∀ w ∈ [X], IsWord w := by simpa using hX
  have hwords : ∀ v ∈ ["includes", "implements"], IsWord v := by decide
  obtain ⟨d, rfl, hd | hd⟩ := definition_headed (words_interface hX)
    (fun v hv f => keyword_identifier_eq_none hX (hwords v hv) u) h
  · have hparent : parent (headed [] u) = some (none, headed [] u) := by
      refine parent_apply ?_
      rw [head?_headed_nil]
      decide
    rw [bind_of_some (identifier_headed hX' hname u), bind_of_some hparent] at hd
    obtain ⟨ms, y, hbody, hd⟩ := bind_eq_some hd
    cases hd
    exact ⟨ms, rfl, hbody⟩
  · rw [keyword_identifier_eq_none hX (by decide)] at hd
    cases hd

theorem definition_headed_mixin {u : List Char} {o : Option Definition}
    (h : definition (levelAt n) (headed ["interface", "mixin", X] u) = some (o, r)) :
    ∃ ms, o = some (.interface { name, kind := .mixin, members := ms }) ∧
      body (mixinMember (levelAt n)) (headed [] u) = some (ms, r) := by
  have hws := words_mixin hX
  have hX' : ∀ w ∈ [X], IsWord w := by simpa using hX
  have hmixin : ∀ w ∈ ["mixin", X], IsWord w := fun w hw => hws w (List.mem_cons_of_mem _ hw)
  have hother : ∀ v ∈ ["includes", "implements"], IsWord v ∧ v ≠ "mixin" := by decide
  obtain ⟨d, rfl, hd | hd⟩ := definition_headed hws (fun v hv f =>
    bind_eq_none (keyword_headed_of_ne hmixin (hother v hv).1 (hother v hv).2 u) _) h
  · -- The word `mixin` would be the name, and no brace follows it.
    have hbrace : mark "\x7b" (headed [X] u) = none :=
      mark_eq_none (c := '\x7b') rfl (by decide) (by rw [head?_headed hX']; nofun)
    have hbody : body (interfaceMember (levelAt n)) (headed [X] u) = none := bind_eq_none hbrace _
    have hparent : parent (headed [X] u) = some (none, headed [X] u) := by
      refine parent_apply ?_
      rw [head?_headed hX']
      nofun
    rw [bind_of_some (identifier_headed hmixin (by decide : nameOf? "mixin" = some "mixin") u),
      bind_of_some hparent, bind_eq_none hbody] at hd
    cases hd
  · rw [bind_of_some (keyword_headed hmixin u), bind_of_some (identifier_headed hX' hname u)] at hd
    obtain ⟨ms, y, hbody, hd⟩ := bind_eq_some hd
    cases hd
    exact ⟨ms, rfl, hbody⟩

end Sources

/-! ## Sources -/

/-- The definitions of a source that starts with the word `interface`: one, and those behind it. -/
theorem exists_definition_of_parse {source : String} {ws : List String} {u : List Char}
    {ds : List Definition} (hsource : fillWildcards source.toList = headed ("interface" :: ws) u)
    (h : parse source = .ok ds) :
    ∃ o r, definition? (headed ("interface" :: ws) u) = some (o, r) ∧
      ds = o.toList ++ (statements r).1.filterMap id := by
  unfold parse at h
  rw [hsource] at h
  obtain ⟨hblank, rfl⟩ := parseChars_eq_ok_iff.1 h
  cases hdef : definition? (headed ("interface" :: ws) u) with
  | none =>
    rw [statements_of_none hdef, isBlankText_interface] at hblank
    cases hblank
  | some x =>
    refine ⟨x.1, x.2, rfl, ?_⟩
    rw [statements_of_some hdef]
    cases x.1 <;> rfl

/-- **The members of an interface and of a mixin that are written alike** belong together one by
one.  Two of them are the same, if that of the interface has no qualifier and is no constructor, and
neither of them has lost its name. -/
theorem members_in_mixin {X name s : String} {ds ds' : List Definition} (hX : IsWord X)
    (hname : nameOf? X = some name) (h : parse (inInterface X s) = .ok ds)
    (h' : parse (inMixin X s) = .ok ds') :
    ∃ ms ms' others, ds = .interface { name, members := ms } :: others ∧
      ds' = .interface { name, kind := .mixin, members := ms' } :: others ∧
      List.Forall₂ (fun m m' => Member.InMixin m m' ∧
        (m' = m ↔ m.qualifier = .plain ∧ m.kind ≠ .constructor ∧ m'.name = m.name)) ms ms' := by
  have hfill : fillWildcards (inInterface X s).toList =
      headed ["interface", X] (fillWildcards (s.toList ++ "\x7d;".toList)) := by
    rw [toList_inInterface, fillWildcards_headed (words_interface hX)]
  have hfill' : fillWildcards (inMixin X s).toList =
      headed ["interface", "mixin", X] (fillWildcards (s.toList ++ "\x7d;".toList)) := by
    rw [toList_inMixin, fillWildcards_headed (words_mixin hX)]
  generalize fillWildcards (s.toList ++ "\x7d;".toList) = u at hfill hfill'
  obtain ⟨o, r, hdef, rfl⟩ := exists_definition_of_parse hfill h
  obtain ⟨o', r', hdef', rfl⟩ := exists_definition_of_parse hfill' h'
  -- One level that is high enough for both sources.
  obtain ⟨n, hn, hn'⟩ : ∃ n, (headed ["interface", X] u).length ≤ n + 1 ∧
      (headed ["interface", "mixin", X] u).length ≤ n + 1 :=
    ⟨max (headed ["interface", X] u).length (headed ["interface", "mixin", X] u).length,
      by omega, by omega⟩
  rw [← definition_eq hn] at hdef
  rw [← definition_eq hn'] at hdef'
  obtain ⟨ms, rfl, hbody⟩ := definition_headed_interface hX hname hdef
  obtain ⟨ms', rfl, hbody'⟩ := definition_headed_mixin hX hname hdef'
  obtain ⟨rfl, hmembers⟩ := inMixin_of_bodies hbody hbody'
  exact ⟨ms, ms', _, rfl, rfl, hmembers.imp fun m m' hm => ⟨hm, hm.eq_iff⟩⟩

def mixedMembers : String := "attribute X a; stringifier X f(); getter X ();"

theorem members_in_mixin_mixed :
    ∃ ds ds', parse (inInterface "X" mixedMembers) = .ok ds ∧
      parse (inMixin "X" mixedMembers) = .ok ds' ∧
      (Fragments.members ds).map (·.name) = [some "a", some "f", none] ∧
      ∃ ms ms' others, ds = .interface { name := "X", members := ms } :: others ∧
        ds' = .interface { name := "X", kind := .mixin, members := ms' } :: others ∧
        List.Forall₂ (fun m m' => Member.InMixin m m' ∧
          (m' = m ↔ m.qualifier = .plain ∧ m.kind ≠ .constructor ∧ m'.name = m.name)) ms ms' := by
  have hread : (parse (inInterface "X" mixedMembers)).toOption.map
          (fun ds => (Fragments.members ds).map (·.name)) = some [some "a", some "f", none] ∧
      (parse (inMixin "X" mixedMembers)).toOption.map
          (fun ds => (Fragments.members ds).map (·.name)) =
        some [some "a", some "f", some "X"] := by
    decide +kernel
  obtain ⟨ds, h, hnames⟩ := exists_parse hread.1
  obtain ⟨ds', h', -⟩ := exists_parse hread.2
  exact ⟨ds, ds', h, h', hnames, members_in_mixin (by decide) (by decide) h h'⟩

theorem stringifier_lost_in_mixin :
    parse (inInterface "X" "stringifier attribute DOMString a;") =
        .ok [.interface { name := "X", members :=
          [attributeOf [] .stringifier (false, "a", .named "DOMString")] }] ∧
      parse (inMixin "X" "stringifier attribute DOMString a;") =
        .ok [.interface { name := "X", kind := .mixin, members :=
          [attributeOf [] .plain (false, "a", .named "DOMString")] }] ∧
      attributeOf [] .stringifier (false, "a", .named "DOMString") ≠
        attributeOf [] .plain (false, "a", .named "DOMString") := by
  decide +kernel

end IdlDocs.Idl
