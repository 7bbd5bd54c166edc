import IdlDocs.Proofs.Idl.Types.Written

/-!
# What is kept of a written type

The grammar drops two things that a type is written with: a low line in front of a name, and a
nullable mark behind a keyword type.

* `TypeExpr.kept`, `keptTokens`: what is kept of a type, and of its tokens.
* `Fits.tokens_kept`: **what is kept of a type has the tokens that are kept.**
* `TypeExpr.keepsMarks`: the types that may be written again as they are kept.
* `Fits.kept_of_keepsMarks`, `Fits.kept_of_tokens`: both directions of this.
* `keptTokens_eq_self_iff`: **the rows of tokens of which all are kept.**
-/

namespace IdlDocs.Idl

open Text

/-! ## What is kept -/

def keptName (n : String) : String := (nameOf? n).getD n

namespace TypeExpr

def isKeyword : TypeExpr → Bool
  | named n => keywordTypes.contains n
  | union _ | generic _ _ | nullable _ => false

mutual

/-- What is kept of a written type. -/
def kept : TypeExpr → TypeExpr
  | named n => named (keptName n)
  | union ts => union (keptAll ts)
  | generic k ts => generic k (keptAll ts)
  | nullable t => if t.isKeyword then t.kept else nullable t.kept

def keptAll : List TypeExpr → List TypeExpr
  | [] => []
  | t :: ts => t.kept :: keptAll ts

end

theorem keptAll_eq_map (ts : List TypeExpr) : keptAll ts = ts.map kept := by
  induction ts with
  | nil => rfl
  | cons t ts ih => simp [keptAll, ih]

end TypeExpr

def Token.kept : Token → Token
  | .word w => .word (keptName w)
  | .mark c => .mark c

def Token.isKeyword : Token → Bool
  | .word w => keywordTypes.contains w
  | .mark _ => false

def dropMark (ts : List Token) : List Token :=
  if ts.head? = some (.mark '?') then ts.tail else ts

/-- What is kept of a row of tokens: no low line in front of a name, and no nullable mark behind
a keyword. -/
def keptTokens : List Token → List Token
  | [] => []
  | t :: ts => t.kept :: if t.isKeyword then dropMark (keptTokens ts) else keptTokens ts

/-! ## The tokens that are kept -/

theorem keptTokens_eq_nil {ts : List Token} : keptTokens ts = [] ↔ ts = [] := by
  cases ts <;> simp [keptTokens]

theorem head?_keptTokens {ts : List Token} {c : Char} :
    (keptTokens ts).head? = some (.mark c) ↔ ts.head? = some (.mark c) := by
  cases ts with
  | nil => rfl
  | cons t ts => cases t <;> simp [keptTokens, Token.kept]

theorem dropMark_append {xs : List Token} (h : xs ≠ []) (ys : List Token) :
    dropMark (xs ++ ys) = dropMark xs ++ ys := by
  obtain ⟨x, xs, rfl⟩ := List.exists_cons_of_ne_nil h
  unfold dropMark
  rw [List.cons_append, List.head?_cons, List.head?_cons]
  split <;> rfl

/-- Rows of tokens are kept one by one, where no mark stands behind a keyword. -/
theorem keptTokens_append {xs ys : List Token}
    (h : (∀ t, xs.getLast? = some t → t.isKeyword = false) ∨ ys.head? ≠ some (.mark '?')) :
    keptTokens (xs ++ ys) = keptTokens xs ++ keptTokens ys := by
  induction xs with
  | nil => rfl
  | cons t xs ih =>
    rw [List.cons_append, keptTokens, keptTokens]
    cases xs with
    | nil =>
      cases ht : t.isKeyword with
      | false => rfl
      | true =>
        have hys : ys.head? ≠ some (.mark '?') :=
          h.resolve_left fun hlast => Bool.false_ne_true ((hlast t rfl).symm.trans ht)
        have hdrop : dropMark (keptTokens ys) = keptTokens ys :=
          if_neg fun hhead => hys (head?_keptTokens.1 hhead)
        simp only [List.nil_append, if_true, hdrop]
        rfl
    | cons u xs =>
      have hlast : (t :: u :: xs).getLast? = (u :: xs).getLast? := rfl
      have hne : keptTokens (u :: xs) ≠ [] := fun he => nomatch keptTokens_eq_nil.1 he
      rw [ih (hlast ▸ h), dropMark_append hne]
      split <;> rfl

theorem keptTokens_intercalate {w : String} (hw : (Token.word w).isKeyword = false)
    (hname : keptName w = w) {ts : List TypeExpr}
    (h : ∀ t ∈ ts, t.kept.tokens = keptTokens t.tokens) :
    [.word w].intercalate (TypeExpr.tokensOf (TypeExpr.keptAll ts)) =
      keptTokens ([.word w].intercalate (TypeExpr.tokensOf ts)) := by
  induction ts with
  | nil => rfl
  | cons t ts ih =>
    have ht := h t List.mem_cons_self
    have hts := ih fun u hu => h u (List.mem_cons_of_mem t hu)
    cases ts with
    | nil => simpa [TypeExpr.keptAll, TypeExpr.tokensOf] using ht
    | cons u ts =>
      have hsep (us : List Token) : keptTokens (.word w :: us) = .word w :: keptTokens us := by
        rw [keptTokens, hw, Token.kept, hname]
        rfl
      rw [TypeExpr.keptAll, TypeExpr.keptAll, TypeExpr.intercalate_cons_cons, ← TypeExpr.keptAll,
        hts, ht, TypeExpr.intercalate_cons_cons, keptTokens_append (.inr (by simp)), hsep]

/-! ## Names -/

theorem exists_of_nameOf? {w n : String} (h : nameOf? w = some n) :
    ∃ c cs, n.toList = c :: cs ∧ dropLow w.toList = c :: cs ∧ isAlnum c = true := by
  unfold nameOf? at h
  split at h
  · next hhead =>
    cases h
    obtain ⟨c, hc, halnum⟩ := (Option.any_eq_true _ _).1 hhead
    obtain ⟨cs, hcs⟩ := List.head?_eq_some_iff.1 hc
    exact ⟨c, cs, by rw [String.toList_ofList, hcs], hcs, halnum⟩
  · cases h

theorem nameOf?_of_nameOf? {w n : String} (h : nameOf? w = some n) : nameOf? n = some n := by
  obtain ⟨c, cs, hn, -, hc⟩ := exists_of_nameOf? h
  have hlow : c ≠ '_' := by
    rintro rfl
    exact absurd hc (by decide)
  have hdrop : dropLow n.toList = n.toList := if_neg (by rw [hn]; simpa using hlow)
  unfold nameOf?
  rw [hdrop, String.ofList_toList, hn]
  exact if_pos hc

theorem isWord_of_nameOf? {w n : String} (hw : IsWord w) (h : nameOf? w = some n) : IsWord n := by
  obtain ⟨c, cs, hn, hdrop, hc⟩ := exists_of_nameOf? h
  have hmem : ∀ d ∈ dropLow w.toList, d ∈ w.toList := by
    unfold dropLow
    split
    · exact fun d => List.mem_of_mem_tail
    · exact fun d => id
  constructor
  · rw [hn]
    show isWordStart c = true
    unfold isWordStart
    rw [hc]
    rfl
  · refine List.all_eq_true.2 fun d hd => ?_
    rw [hn, ← hdrop] at hd
    exact List.all_eq_true.1 hw.2 d (hmem d hd)

theorem keptName_of_nameOf? {w n : String} (h : nameOf? w = some n) : keptName w = n := by
  unfold keptName
  rw [h]
  rfl

theorem isSpelled_keptName {n : String} (h : IsSpelled n) :
    IsSpelled (keptName n) ∧ keptName (keptName n) = keptName n ∧
      wordsOf (keptName n).toList = keptTokens (wordsOf n.toList) := by
  rcases h with hn | ⟨hn, hname⟩
  · have hall : ∀ n ∈ basicTypes, IsSpelled (keptName n) ∧
        keptName (keptName n) = keptName n ∧
        wordsOf (keptName n).toList = keptTokens (wordsOf n.toList) := by decide +kernel
    exact hall n hn
  · obtain ⟨m, hm⟩ := Option.isSome_iff_exists.1 hname
    have hword := isWord_of_nameOf? hn hm
    have hsame := nameOf?_of_nameOf? hm
    rw [keptName_of_nameOf? hm, keptName_of_nameOf? hsame, wordsOf_of_isWord hn,
      wordsOf_of_isWord hword]
    refine ⟨.inr ⟨hword, by rw [hsame]; rfl⟩, rfl, ?_⟩
    simp [keptTokens, Token.kept, keptName_of_nameOf? hm, dropMark]

/-- No keyword stands at the end of a name that is none. -/
theorem IsSpelled.getLast_not_isKeyword {n : String} (h : IsSpelled n) (hn : n ∉ keywordTypes) :
    ∀ a, (wordsOf n.toList).getLast? = some a → a.isKeyword = false := by
  rcases h with hbasic | ⟨hword, -⟩
  · have hall : ∀ n ∈ basicTypes, (wordsOf n.toList).getLast?.all (!·.isKeyword) = true := by
      decide +kernel
    intro a ha
    have hlast := hall n hbasic
    rw [ha] at hlast
    simpa using hlast
  · rw [wordsOf_of_isWord hword]
    intro a ha
    cases ha
    simpa [Token.isKeyword] using hn

theorem isSpelled_of_keyword {n : String} (h : n ∈ keywordTypes) :
    IsSpelled n ∧ keptName n = n ∧ IsWord n := by
  have hall : ∀ n ∈ keywordTypes, IsSpelled n ∧ keptName n = n ∧ IsWord n := by decide +kernel
  exact hall n h

/-! ## Types -/

namespace TypeExpr

theorem isKeyword_named {n : String} : (named n).isKeyword = true ↔ n ∈ keywordTypes :=
  List.contains_iff_mem

theorem isKeyword_named_false {n : String} (h : n ∉ keywordTypes) :
    (named n).isKeyword = false := by
  rw [← Bool.not_eq_true, isKeyword_named]
  exact h

theorem kept_generic (k : GenericKind) (t : TypeExpr) :
    (generic k [t]).kept = generic k [t.kept] := by
  rw [kept, keptAll, keptAll]

theorem kept_record (k v : TypeExpr) :
    (generic .record [k, v]).kept = generic .record [k.kept, v.kept] := by
  rw [kept, keptAll, keptAll, keptAll]

theorem kept_union (ts : List TypeExpr) : (union ts).kept = union (ts.map kept) := by
  rw [kept, keptAll_eq_map]

theorem kept_withMark {t : TypeExpr} (h : t.isKeyword = false) (b : Bool) :
    (t.withMark b).kept = t.kept.withMark b := by
  cases b with
  | false => rfl
  | true =>
    show (nullable t).kept = _
    rw [kept, h]
    rfl

theorem kept_named_withMark {n : String} (h : n ∉ keywordTypes) (b : Bool) :
    ((named n).withMark b).kept = (named (keptName n)).withMark b :=
  kept_withMark (isKeyword_named_false h) b

theorem kept_generic_withMark (k : GenericKind) (t : TypeExpr) (b : Bool) :
    ((generic k [t]).withMark b).kept = (generic k [t.kept]).withMark b := by
  rw [kept_withMark rfl, kept_generic]

theorem kept_record_withMark (k v : TypeExpr) (b : Bool) :
    ((generic .record [k, v]).withMark b).kept =
      (generic .record [k.kept, v.kept]).withMark b := by
  rw [kept_withMark rfl, kept_record]

theorem kept_union_withMark (ts : List TypeExpr) (b : Bool) :
    ((union ts).withMark b).kept = (union (ts.map kept)).withMark b := by
  rw [kept_withMark rfl, kept_union]

theorem kept_keyword {n : String} (h : n ∈ keywordTypes) (b : Bool) :
    ((named n).withMark b).kept = named n := by
  have hname : (named n).kept = named n := by rw [kept, (isSpelled_of_keyword h).2.1]
  cases b with
  | false => exact hname
  | true =>
    show (nullable (named n)).kept = _
    rw [kept, isKeyword_named.2 h, if_pos rfl, hname]

theorem isKeyword_getLast_generic (k : GenericKind) (ts : List TypeExpr) :
    ∀ a, (generic k ts).tokens.getLast? = some a → a.isKeyword = false := by
  rw [tokens, ← List.cons_append, ← List.cons_append, List.getLast?_concat]
  rintro _ ⟨⟩
  rfl

theorem isKeyword_getLast_union (ts : List TypeExpr) :
    ∀ a, (union ts).tokens.getLast? = some a → a.isKeyword = false := by
  rw [tokens, ← List.cons_append, List.getLast?_concat]
  rintro _ ⟨⟩
  rfl

/-! What is kept of the tokens of each form of types. -/

theorem keptTokens_withMark {t : TypeExpr}
    (hlast : ∀ a, t.tokens.getLast? = some a → a.isKeyword = false) (b : Bool) :
    keptTokens (t.withMark b).tokens = keptTokens t.tokens ++ markIf b := by
  have hmark : keptTokens (markIf b) = markIf b := by cases b <;> rfl
  rw [tokens_withMark, keptTokens_append (.inl hlast), hmark]

theorem keptTokens_mark_cons (c : Char) (ts : List Token) :
    keptTokens (.mark c :: ts) = .mark c :: keptTokens ts := rfl

theorem keptTokens_append_mark (xs ys : List Token) {c : Char} (hc : c ≠ '?') :
    keptTokens (xs ++ .mark c :: ys) = keptTokens xs ++ .mark c :: keptTokens ys :=
  keptTokens_append (.inr (by simpa using hc))

theorem keptTokens_tag_cons {k : GenericKind} (hk : k ∈ writtenKinds) (ts : List Token) :
    keptTokens (.word k.tag :: ts) = .word k.tag :: keptTokens ts := by
  simp only [writtenKinds, List.mem_cons, List.not_mem_nil, or_false] at hk
  rcases hk with rfl | rfl | rfl | rfl <;> rfl

theorem keptTokens_generic {k : GenericKind} (hk : k ∈ writtenKinds) (t : TypeExpr) :
    keptTokens (generic k [t]).tokens =
      .word k.tag :: .mark '<' :: (keptTokens t.tokens ++ [Token.mark '>']) := by
  rw [tokens_generic, keptTokens_tag_cons hk, keptTokens_mark_cons,
    keptTokens_append_mark _ _ (by decide)]
  rfl

theorem keptTokens_record (k v : TypeExpr) : keptTokens (generic .record [k, v]).tokens =
    .word (GenericKind.tag .record) :: .mark '<' ::
      (keptTokens k.tokens ++ Token.mark ',' :: (keptTokens v.tokens ++ [Token.mark '>'])) := by
  rw [tokens_record, keptTokens_tag_cons (by simp [writtenKinds]), keptTokens_mark_cons,
    keptTokens_append_mark _ _ (by decide), keptTokens_append_mark _ _ (by decide)]
  rfl

theorem keptTokens_union (ts : List TypeExpr) : keptTokens (union ts).tokens =
    .mark '(' :: (keptTokens ([.word "or"].intercalate (tokensOf ts)) ++ [Token.mark ')']) := by
  rw [tokens, keptTokens_mark_cons, keptTokens_append_mark _ _ (by decide)]
  rfl

/-! The tokens of each form of types are kept where those of its parts are. -/

theorem tokens_kept_withMark {t : TypeExpr} (h : t.isKeyword = false)
    (hlast : ∀ a, t.tokens.getLast? = some a → a.isKeyword = false)
    (ht : t.kept.tokens = keptTokens t.tokens) (b : Bool) :
    (t.withMark b).kept.tokens = keptTokens (t.withMark b).tokens := by
  rw [kept_withMark h, tokens_withMark, keptTokens_withMark hlast, ht]

theorem tokens_kept_named {n : String} (h : IsSpelled n) (b : Bool) :
    ((named n).withMark b).kept.tokens = keptTokens ((named n).withMark b).tokens := by
  by_cases hk : n ∈ keywordTypes
  · obtain ⟨-, hname, hword⟩ := isSpelled_of_keyword hk
    have hkeyword : (Token.word n).isKeyword = true := List.contains_iff_mem.2 hk
    rw [kept_keyword hk, tokens_withMark]
    show wordsOf n.toList = keptTokens (wordsOf n.toList ++ _)
    rw [wordsOf_of_isWord hword]
    cases b <;> simp [markIf, keptTokens, Token.kept, hname, hkeyword, dropMark]
  · exact tokens_kept_withMark (isKeyword_named_false hk) (h.getLast_not_isKeyword hk)
      (isSpelled_keptName h).2.2 b

theorem tokens_kept_generic {k : GenericKind} (hk : k ∈ writtenKinds) {t : TypeExpr}
    (ht : t.kept.tokens = keptTokens t.tokens) :
    (generic k [t]).kept.tokens = keptTokens (generic k [t]).tokens := by
  rw [kept_generic, tokens_generic, keptTokens_generic hk, ht]

theorem tokens_kept_record {k v : TypeExpr} (hk : k.kept.tokens = keptTokens k.tokens)
    (hv : v.kept.tokens = keptTokens v.tokens) :
    (generic .record [k, v]).kept.tokens = keptTokens (generic .record [k, v]).tokens := by
  rw [kept_record, tokens_record, keptTokens_record, hk, hv]

theorem tokens_kept_union {ts : List TypeExpr}
    (h : ∀ t ∈ ts, t.kept.tokens = keptTokens t.tokens) :
    (union ts).kept.tokens = keptTokens (union ts).tokens := by
  rw [keptTokens_union, kept, tokens,
    keptTokens_intercalate (by decide +kernel) (by decide +kernel) h]

end TypeExpr

theorem mem_writtenKinds_of_list {k : GenericKind} (hk : k = .sequence ∨ k = .frozenArray) :
    k ∈ writtenKinds := by
  rcases hk with rfl | rfl <;> decide

/-- **What is kept of a type has the tokens that are kept.** -/
theorem Fits.tokens_kept {p : Place} {t : TypeExpr} (h : Fits p t) :
    t.kept.tokens = keptTokens t.tokens := by
  induction h with
  | name hn b hb => exact TypeExpr.tokens_kept_named hn b
  | promise h ih => exact TypeExpr.tokens_kept_generic (by simp [writtenKinds]) ih
  | list hk h b ih =>
    refine TypeExpr.tokens_kept_withMark rfl (TypeExpr.isKeyword_getLast_generic _ _) ?_ b
    exact TypeExpr.tokens_kept_generic (mem_writtenKinds_of_list hk) ih
  | record hk hv b ihk ihv =>
    exact TypeExpr.tokens_kept_withMark rfl (TypeExpr.isKeyword_getLast_generic _ _)
      (TypeExpr.tokens_kept_record ihk ihv) b
  | union hp h b ih =>
    exact TypeExpr.tokens_kept_withMark rfl (TypeExpr.isKeyword_getLast_union _)
      (TypeExpr.tokens_kept_union ih) b

/-! ## Marks that are kept -/

/-- The place of an argument of a generic type. -/
def GenericKind.placeOf : GenericKind → Nat → Place
  | promise, _ => .result
  | record, 0 => .key
  | _, _ => .type

namespace TypeExpr

/-- Tells whether a nullable mark behind a type is kept at a place. -/
def keepsMark (p : Place) : TypeExpr → Bool
  | named n => !(keywordTypes ++ p.bare).contains n
  | union _ | generic _ _ | nullable _ => true

mutual

/-- Tells whether all nullable marks of a type are kept at a place. -/
def keepsMarks (p : Place) : TypeExpr → Bool
  | named _ => true
  | union ts => allKeepMarks (fun _ => .member) ts
  | generic k ts => allKeepMarks k.placeOf ts
  | nullable t => t.keepsMark p && t.keepsMarks p

/-- Tells whether all nullable marks of the types of a list are kept. -/
def allKeepMarks (place : Nat → Place) : List TypeExpr → Bool
  | [] => true
  | t :: ts => t.keepsMarks (place 0) && allKeepMarks (fun i => place (i + 1)) ts

end

theorem allKeepMarks_iff {p : Place} {ts : List TypeExpr} :
    allKeepMarks (fun _ => p) ts = true ↔ ∀ t ∈ ts, t.keepsMarks p = true := by
  induction ts with
  | nil => exact ⟨fun _ t ht => absurd ht List.not_mem_nil, fun _ => by rw [allKeepMarks]⟩
  | cons t ts ih => rw [allKeepMarks, Bool.and_eq_true, ih, List.forall_mem_cons]

theorem keepsMarks_withMark {p : Place} {t : TypeExpr} (h : t.keepsMark p = true) (b : Bool) :
    (t.withMark b).keepsMarks p = t.keepsMarks p := by
  cases b with
  | false => rfl
  | true =>
    show (nullable t).keepsMarks p = _
    rw [keepsMarks, h, Bool.true_and]

theorem keepsMarks_generic (k : GenericKind) (p : Place) (t : TypeExpr) :
    (generic k [t]).keepsMarks p = t.keepsMarks (k.placeOf 0) := by
  rw [keepsMarks, allKeepMarks, allKeepMarks, Bool.and_true]

theorem keepsMarks_list {k : GenericKind} (hk : k = .sequence ∨ k = .frozenArray) (p : Place)
    (t : TypeExpr) (b : Bool) :
    ((generic k [t]).withMark b).keepsMarks p = t.keepsMarks .type := by
  rw [keepsMarks_withMark rfl, keepsMarks_generic]
  rcases hk with rfl | rfl <;> rfl

theorem keepsMarks_record (p : Place) (k v : TypeExpr) (b : Bool) :
    ((generic .record [k, v]).withMark b).keepsMarks p =
      (k.keepsMarks .key && v.keepsMarks .type) := by
  rw [keepsMarks_withMark rfl, keepsMarks, allKeepMarks, allKeepMarks, allKeepMarks, Bool.and_true]
  rfl

theorem keepsMarks_union (p : Place) (ts : List TypeExpr) (b : Bool) :
    ((union ts).withMark b).keepsMarks p = true ↔ ∀ t ∈ ts, t.keepsMarks .member = true := by
  rw [keepsMarks_withMark rfl, keepsMarks, allKeepMarks_iff]

/-- Where a name keeps its mark it is no word that takes none. -/
theorem notMem_of_keepsMarks {p : Place} {n : String}
    (h : ((named n).withMark true).keepsMarks p = true) : n ∉ keywordTypes ++ p.bare := by
  rw [withMark, keepsMarks, Bool.and_eq_true] at h
  simpa [keepsMark] using h.1

theorem kept_keptName {n : String} (h : IsSpelled n) {b : Bool}
    (hb : b = true → keptName n ∉ keywordTypes) :
    ((named (keptName n)).withMark b).kept = (named (keptName n)).withMark b := by
  have hsame : keptName (keptName n) = keptName n := (isSpelled_keptName h).2.1
  cases b with
  | false =>
    show (named _).kept = named _
    rw [kept, hsame]
  | true => rw [kept_named_withMark (hb rfl), hsame]

end TypeExpr

theorem kept_named_of_keepsMarks {p : Place} {n : String} (hn : IsSpelled n) {b : Bool}
    (hmarks : ((TypeExpr.named n).withMark b).kept.keepsMarks p = true) :
    Fits p ((TypeExpr.named n).withMark b).kept ∧
      ((TypeExpr.named n).withMark b).kept.kept = ((TypeExpr.named n).withMark b).kept := by
  by_cases hk : n ∈ keywordTypes
  · rw [TypeExpr.kept_keyword hk]
    exact ⟨.name hn false nofun, TypeExpr.kept_keyword hk false⟩
  · rw [TypeExpr.kept_named_withMark hk] at hmarks ⊢
    have hnot : b = true → keptName n ∉ keywordTypes ∧ keptName n ∉ p.bare := by
      rintro rfl
      simpa using TypeExpr.notMem_of_keepsMarks hmarks
    exact ⟨.name (isSpelled_keptName hn).1 b fun hb => (hnot hb).2,
      TypeExpr.kept_keptName hn fun hb => (hnot hb).1⟩

/-- **What is kept of a type may be written at its place, and is kept as it is**, where its marks
are kept. -/
theorem Fits.kept_of_keepsMarks {p : Place} {t : TypeExpr} (h : Fits p t)
    (hmarks : t.kept.keepsMarks p = true) : Fits p t.kept ∧ t.kept.kept = t.kept := by
  induction h with
  | name hn b hb => exact kept_named_of_keepsMarks hn hmarks
  | promise h ih =>
    rw [TypeExpr.kept_generic] at hmarks ⊢
    rw [TypeExpr.keepsMarks_generic] at hmarks
    obtain ⟨hfits, hsame⟩ := ih hmarks
    exact ⟨.promise hfits, by rw [TypeExpr.kept_generic, hsame]⟩
  | list hk h b ih =>
    rw [TypeExpr.kept_generic_withMark] at hmarks ⊢
    rw [TypeExpr.keepsMarks_list hk] at hmarks
    obtain ⟨hfits, hsame⟩ := ih hmarks
    exact ⟨.list hk hfits b, by rw [TypeExpr.kept_generic_withMark, hsame]⟩
  | record hk hv b ihk ihv =>
    rw [TypeExpr.kept_record_withMark] at hmarks ⊢
    rw [TypeExpr.keepsMarks_record, Bool.and_eq_true] at hmarks
    obtain ⟨hkey, hsameKey⟩ := ihk hmarks.1
    obtain ⟨hvalue, hsameValue⟩ := ihv hmarks.2
    exact ⟨.record hkey hvalue b,
      by rw [TypeExpr.kept_record_withMark, hsameKey, hsameValue]⟩
  | union hp h b ih =>
    rw [TypeExpr.kept_union_withMark] at hmarks ⊢
    rw [TypeExpr.keepsMarks_union, List.forall_mem_map] at hmarks
    refine ⟨.union hp (List.forall_mem_map.2 fun t ht => (ih t ht (hmarks t ht)).1) b, ?_⟩
    rw [TypeExpr.kept_union_withMark, List.map_map]
    congr 2
    exact List.map_congr_left fun t ht => (ih t ht (hmarks t ht)).2

/-! ## Types of which all tokens are kept -/

theorem length_dropMark_le (ts : List Token) : (dropMark ts).length ≤ ts.length := by
  unfold dropMark
  split
  · rw [List.length_tail]
    omega
  · exact Nat.le_refl _

theorem length_keptTokens_le (ts : List Token) : (keptTokens ts).length ≤ ts.length := by
  induction ts with
  | nil => exact Nat.le_refl _
  | cons t ts ih =>
    have := length_dropMark_le (keptTokens ts)
    rw [keptTokens, List.length_cons, List.length_cons]
    split <;> omega

theorem keptTokens_inj {xs ys zs : List Token} (h : keptTokens xs ++ zs = xs ++ ys)
    (hle : zs.length ≤ ys.length) : keptTokens xs = xs ∧ zs = ys := by
  have hlength := congrArg List.length h
  rw [List.length_append, List.length_append] at hlength
  have := length_keptTokens_le xs
  exact List.append_inj h (by omega)

/-- By induction on the types of the list. -/
theorem kept_of_intercalate {w : String} (hw : (Token.word w).isKeyword = false)
    (hname : keptName w = w) {ts : List TypeExpr}
    (h : keptTokens ([.word w].intercalate (TypeExpr.tokensOf ts)) =
      [.word w].intercalate (TypeExpr.tokensOf ts)) :
    ∀ t ∈ ts, keptTokens t.tokens = t.tokens := by
  induction ts with
  | nil => exact nofun
  | cons t ts ih =>
    cases ts with
    | nil => simpa [TypeExpr.tokensOf] using h
    | cons u ts =>
      have hsep (us : List Token) : keptTokens (.word w :: us) = .word w :: keptTokens us := by
        rw [keptTokens, hw, Token.kept, hname]
        rfl
      rw [TypeExpr.intercalate_cons_cons, keptTokens_append (.inr (by simp)), hsep] at h
      obtain ⟨hfirst, hrest⟩ := keptTokens_inj h
        (Nat.succ_le_succ (length_keptTokens_le _))
      exact List.forall_mem_cons.2 ⟨hfirst, ih (List.cons.inj hrest).2⟩

theorem kept_named_of_tokens {p : Place} {n : String} (hn : IsSpelled n) {b : Bool}
    (hb : b = true → n ∉ p.bare) (h : keptTokens ((TypeExpr.named n).withMark b).tokens =
      ((TypeExpr.named n).withMark b).tokens) :
    ((TypeExpr.named n).withMark b).kept = (TypeExpr.named n).withMark b ∧
      ((TypeExpr.named n).withMark b).keepsMarks p = true := by
  have hsame := (TypeExpr.tokens_kept_named hn b).trans h
  by_cases hk : n ∈ keywordTypes
  · rw [TypeExpr.kept_keyword hk, TypeExpr.tokens_withMark] at hsame
    cases b with
    | false => exact ⟨TypeExpr.kept_keyword hk false, rfl⟩
    | true => simp [markIf] at hsame
  · rw [TypeExpr.kept_named_withMark hk, TypeExpr.tokens_withMark,
      TypeExpr.tokens_withMark] at hsame
    have hwords : wordsOf (keptName n).toList = wordsOf n.toList := List.append_cancel_right hsame
    have hname : keptName n = n := by
      have hchars := congrArg spaced hwords
      rw [spaced_wordsOf, spaced_wordsOf] at hchars
      exact String.toList_inj.1 hchars
    refine ⟨by rw [TypeExpr.kept_named_withMark hk, hname], ?_⟩
    cases b with
    | false => rfl
    | true => simp [TypeExpr.withMark, TypeExpr.keepsMarks, TypeExpr.keepsMark, hk, hb]

/-- **A type of which all tokens are kept is kept, with all of its marks.** -/
theorem Fits.kept_of_tokens {p : Place} {t : TypeExpr} (h : Fits p t)
    (htokens : keptTokens t.tokens = t.tokens) : t.kept = t ∧ t.keepsMarks p = true := by
  induction h with
  | name hn b hb => exact kept_named_of_tokens hn hb htokens
  | promise h ih =>
    rw [TypeExpr.keptTokens_generic (by decide), TypeExpr.tokens_generic] at htokens
    simp only [List.cons.injEq, true_and, List.append_cancel_right_eq] at htokens
    obtain ⟨hkept, hmarks⟩ := ih htokens
    exact ⟨by rw [TypeExpr.kept_generic, hkept], by rw [TypeExpr.keepsMarks_generic]; exact hmarks⟩
  | list hk h b ih =>
    rw [TypeExpr.keptTokens_withMark (TypeExpr.isKeyword_getLast_generic _ _),
      TypeExpr.keptTokens_generic (mem_writtenKinds_of_list hk), TypeExpr.tokens_withMark,
      TypeExpr.tokens_generic] at htokens
    simp only [List.cons_append, List.cons.injEq, true_and, List.append_cancel_right_eq] at htokens
    obtain ⟨hkept, hmarks⟩ := ih htokens
    exact ⟨by rw [TypeExpr.kept_generic_withMark, hkept],
      by rw [TypeExpr.keepsMarks_list hk, hmarks]⟩
  | @record _ k v hk hv b ihk ihv =>
    rw [TypeExpr.keptTokens_withMark (TypeExpr.isKeyword_getLast_generic _ _),
      TypeExpr.keptTokens_record, TypeExpr.tokens_withMark, TypeExpr.tokens_record] at htokens
    simp only [List.cons_append, List.cons.injEq, true_and, List.append_cancel_right_eq] at htokens
    have hle : (keptTokens v.tokens ++ [Token.mark '>']).length ≤
        (v.tokens ++ [Token.mark '>']).length := by
      rw [List.length_append, List.length_append]
      exact Nat.add_le_add_right (length_keptTokens_le v.tokens) _
    obtain ⟨hkey, hvalue⟩ := keptTokens_inj htokens (Nat.succ_le_succ hle)
    simp only [List.cons.injEq, true_and, List.append_cancel_right_eq] at hvalue
    obtain ⟨hkeptKey, hmarksKey⟩ := ihk hkey
    obtain ⟨hkeptValue, hmarksValue⟩ := ihv hvalue
    refine ⟨by rw [TypeExpr.kept_record_withMark, hkeptKey, hkeptValue], ?_⟩
    rw [TypeExpr.keepsMarks_record, hmarksKey, hmarksValue]
    rfl
  | @union _ ts hp h b ih =>
    rw [TypeExpr.keptTokens_withMark (TypeExpr.isKeyword_getLast_union _),
      TypeExpr.keptTokens_union, TypeExpr.tokens_withMark, TypeExpr.tokens] at htokens
    simp only [List.cons_append, List.cons.injEq, true_and, List.append_cancel_right_eq] at htokens
    have hall := kept_of_intercalate (by decide +kernel) (by decide +kernel) htokens
    refine ⟨?_, (TypeExpr.keepsMarks_union _ _ _).2 fun t ht => (ih t ht (hall t ht)).2⟩
    rw [TypeExpr.kept_union_withMark]
    congr 2
    exact (List.map_congr_left fun t ht => (ih t ht (hall t ht)).1).trans (List.map_id ts)

/-! ## Rows of tokens of which all are kept -/

section Rows

variable {ts : List Token} {w : String}

theorem keptName_eq_self_iff (h : (nameOf? w).isSome = true) :
    keptName w = w ↔ w.toList.head? ≠ some '_' := by
  obtain ⟨n, hn⟩ := Option.isSome_iff_exists.1 h
  have hkept : keptName w = String.ofList (dropLow w.toList) := by
    unfold keptName
    unfold nameOf? at hn ⊢
    split at hn
    · next hhead => rw [if_pos hhead]; rfl
    · cases hn
  rw [hkept, ← String.toList_inj, String.toList_ofList, dropLow]
  split
  · next hhead =>
    refine ⟨fun htail => ?_, fun hne => absurd hhead hne⟩
    obtain ⟨cs, hcs⟩ := List.head?_eq_some_iff.1 hhead
    rw [hcs] at htail
    have hlength := congrArg List.length htail
    simp at hlength
  · next hhead => exact ⟨fun _ => hhead, fun _ => rfl⟩

theorem dropMark_eq_self_iff :
    dropMark (keptTokens ts) = ts ↔ keptTokens ts = ts ∧ ts.head? ≠ some (.mark '?') := by
  unfold dropMark
  split
  · next hhead =>
    obtain ⟨us, rfl⟩ := List.head?_eq_some_iff.1 (head?_keptTokens.1 hhead)
    refine ⟨fun htail => ?_, fun h => absurd rfl h.2⟩
    have hlength := congrArg List.length htail
    have hle := length_keptTokens_le (.mark '?' :: us)
    rw [List.length_tail] at hlength
    simp only [List.length_cons] at hlength hle
    omega
  · next hhead => exact ⟨fun h => ⟨h, fun he => hhead (head?_keptTokens.2 he)⟩, fun h => h.1⟩

theorem Token.kept_eq_self_iff {t : Token} (h : t.IsProper) :
    t.kept = t ↔ ∀ w, t = .word w → w.toList.head? ≠ some '_' := by
  cases t with
  | mark c => exact ⟨fun _ => nofun, fun _ => rfl⟩
  | word w =>
    show Token.word (keptName w) = .word w ↔ _
    rw [Token.word.injEq, keptName_eq_self_iff h.2]
    exact ⟨fun h v hv => Token.word.inj hv ▸ h, fun h => h w rfl⟩

/-- What stands behind a token is kept, if the token is no keyword in front of a mark. -/
theorem keptTokens_behind_iff (t : Token) :
    (if t.isKeyword then dropMark (keptTokens ts) else keptTokens ts) = ts ↔
      keptTokens ts = ts ∧ ∀ w ∈ keywordTypes, t = .word w → ts.head? ≠ some (.mark '?') := by
  cases t with
  | mark c => exact ⟨fun h => ⟨h, fun _ _ => nofun⟩, fun h => h.1⟩
  | word w =>
    by_cases hw : w ∈ keywordTypes
    · have hkeyword : (Token.word w).isKeyword = true := List.contains_iff_mem.2 hw
      rw [if_pos hkeyword, dropMark_eq_self_iff]
      exact ⟨fun h => ⟨h.1, fun _ _ _ => h.2⟩, fun h => ⟨h.1, h.2 w hw rfl⟩⟩
    · have hkeyword : ¬ (Token.word w).isKeyword = true :=
        fun h => hw (List.contains_iff_mem.1 h)
      rw [if_neg hkeyword]
      exact ⟨fun h => ⟨h, fun v hv he => absurd (Token.word.inj he ▸ hv) hw⟩, fun h => h.1⟩

/-- **All tokens are kept where no name has a low line in front of it and no nullable mark stands
behind a keyword type.**  By induction on the tokens. -/
theorem keptTokens_eq_self_iff (h : ∀ t ∈ ts, t.IsProper) :
    keptTokens ts = ts ↔ (∀ w, .word w ∈ ts → w.toList.head? ≠ some '_') ∧
      ∀ w ∈ keywordTypes, ¬ [.word w, .mark '?'] <:+: ts := by
  induction ts with
  | nil => exact ⟨fun _ => ⟨nofun, fun _ _ hpart => nomatch List.infix_nil.1 hpart⟩, fun _ => rfl⟩
  | cons t ts ih =>
    obtain ⟨ht, hts⟩ := List.forall_mem_cons.1 h
    have hpair (w : String) : [.word w, .mark '?'] <:+: t :: ts ↔
        (t = .word w ∧ ts.head? = some (.mark '?')) ∨ [.word w, .mark '?'] <:+: ts := by
      rw [List.infix_cons_iff, List.cons_prefix_cons, List.singleton_prefix_iff_head?_eq_some,
        eq_comm]
    rw [keptTokens, List.cons.injEq, Token.kept_eq_self_iff ht, keptTokens_behind_iff, ih hts]
    constructor
    · rintro ⟨hlow, ⟨hlows, hmarks⟩, hmark⟩
      refine ⟨fun w hw => ?_, fun w hw hpart => ?_⟩
      · rcases List.mem_cons.1 hw with he | hw
        · exact hlow w he.symm
        · exact hlows w hw
      · rcases (hpair w).1 hpart with ⟨he, hhead⟩ | hpart
        · exact hmark w hw he hhead
        · exact hmarks w hw hpart
    · rintro ⟨hlow, hmark⟩
      exact ⟨fun w he => hlow w (he ▸ List.mem_cons_self),
        ⟨fun w hw => hlow w (List.mem_cons_of_mem t hw),
          fun w hw hpart => hmark w hw ((hpair w).2 (.inr hpart))⟩,
        fun w hw he hhead => hmark w hw ((hpair w).2 (.inl ⟨he, hhead⟩))⟩

theorem Token.IsProper.kept {t : Token} (h : t.IsProper) : t.kept.IsProper := by
  cases t with
  | mark c => exact h
  | word w =>
    obtain ⟨n, hn⟩ := Option.isSome_iff_exists.1 h.2
    show (Token.word (keptName w)).IsProper
    rw [keptName_of_nameOf? hn]
    exact ⟨isWord_of_nameOf? h.1 hn, by rw [nameOf?_of_nameOf? hn]; rfl⟩

theorem isProper_keptTokens (h : ∀ t ∈ ts, t.IsProper) : ∀ t ∈ keptTokens ts, t.IsProper := by
  induction ts with
  | nil => exact nofun
  | cons t ts ih =>
    obtain ⟨ht, hts⟩ := List.forall_mem_cons.1 h
    refine List.forall_mem_cons.2 ⟨ht.kept, fun u hu => ih hts u ?_⟩
    unfold dropMark at hu
    split at hu
    · split at hu
      · exact List.mem_of_mem_tail hu
      · exact hu
    · exact hu

end Rows

theorem Fits.text_kept {p : Place} {e : TypeExpr} (h : Fits p e) :
    e.kept.text = String.ofList (spaced (keptTokens e.tokens)) := by
  rw [TypeExpr.text, ← TypeExpr.spaced_tokens, h.tokens_kept]

theorem Fits.isProper_kept {p : Place} {e : TypeExpr} (h : Fits p e) :
    ∀ a ∈ e.kept.tokens, a.IsProper := by
  rw [h.tokens_kept]
  exact isProper_keptTokens h.isProper

end IdlDocs.Idl
