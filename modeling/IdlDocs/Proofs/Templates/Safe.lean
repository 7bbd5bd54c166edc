import IdlDocs.Proofs.Templates.BuiltIn
import IdlDocs.Registry.Source
import IdlDocs.Templates.Rendering
import Mathlib.Data.List.Forall2

/-!
# Templates that always have a text

A template has no text only where a helper cannot be called: a reference needs an argument that
is a text and not empty, or two that are texts, and a macro needs a name.  Whether this can happen
is seen from the template, once it is known which keys of the value lead to such texts.

* `Known`, `Known.Holds`: what is known about a value.
* `Piece.isSafe`, `allSafe`: the test on templates.  In the part for a condition the value of
  the condition is known to be there.
* `exists_render`: **templates that pass the test have a text.**
* `builtIn_isSafe`: **the built-in ones pass it.**
-/

namespace IdlDocs.Templates

/-! ## What is known -/

def IsText (j : Json) : Prop := ∃ s, j = .string s

def IsName (j : Json) : Prop := ∃ s, j = .string s ∧ s ≠ ""

/-- What is known about a value. -/
structure Known where
  /-- The keys of names. -/
  names : List String := []
  /-- The keys of what is a name where it counts as true. -/
  texts : List String := []
  /-- The keys of lists, with the keys of the names of each item. -/
  lists : List (String × List String) := []
  /-- The keys of texts. -/
  strings : List String := []
  /-- The keys of lists, with the keys of the texts of each item. -/
  stringLists : List (String × List String) := []

/-- What is known holds of a value. -/
structure Known.Holds (k : Known) (j : Json) : Prop where
  names : ∀ key ∈ k.names, IsName (member j key)
  texts : ∀ key ∈ k.texts, isTrue (member j key) = true → IsName (member j key)
  lists : ∀ list ∈ k.lists, ∀ item ∈ itemFrames (member j list.1), ∀ key ∈ list.2,
    IsName (member item.value key)
  strings : ∀ key ∈ k.strings, IsText (member j key)
  stringLists : ∀ list ∈ k.stringLists, ∀ item ∈ itemFrames (member j list.1), ∀ key ∈ list.2,
    IsText (member item.value key)

/-- What is known holds of the values of frames, one by one. -/
def Fits (known : List Known) (frames : List Frame) : Prop :=
  List.Forall₂ (fun k frame => Known.Holds k frame.value) known frames

theorem Known.holds_nothing (j : Json) : Known.Holds {} j :=
  ⟨fun _ h => absurd h List.not_mem_nil, fun _ h => absurd h List.not_mem_nil,
    fun _ h => absurd h List.not_mem_nil, fun _ h => absurd h List.not_mem_nil,
    fun _ h => absurd h List.not_mem_nil⟩

theorem exists_of_forall₂ {α β : Type} {R : α → β → Prop} {as : List α} {bs : List β}
    (h : List.Forall₂ R as bs) {i : Nat} {a : α} (ha : as[i]? = some a) :
    ∃ b, bs[i]? = some b ∧ R a b := by
  induction h generalizing i with
  | nil => cases ha
  | @cons c d as bs hcd _ ih =>
    cases i with
    | zero => cases ha; exact ⟨d, rfl, hcd⟩
    | succ i => exact ih ha

/-- What is known about the value of a path with one key. -/
theorem Fits.holds {known : List Known} {frames : List Frame} (h : Fits known frames) {up : Nat}
    {k : Known} (hk : known[up]? = some k) :
    ∃ frame, frames[up]? = some frame ∧ k.Holds frame.value := exists_of_forall₂ h hk

/-! ## The test -/

/-- Tells whether an expression is known to be a name. -/
def Expr.isName (known : List Known) : Expr → Bool
  | literal (.string s) => s != ""
  | path up [key] => known[up]?.any (·.names.contains key)
  | _ => false

/-- Tells whether an expression is known to be a text. -/
def Expr.isText (known : List Known) : Expr → Bool
  | literal (.string _) => true
  | path up [key] => known[up]?.any (·.strings.contains key)
  | _ => false

/-- What is known where the value of an expression counts as true. -/
def learn : List Known → Expr → List Known
  | k :: ks, .path 0 [key] =>
    (if k.texts.contains key then { k with names := key :: k.names } else k) :: ks
  | ks, _ => ks

def itemKnown (known : List Known) : Expr → Known
  | .path up [key] => {
      names := (known[up]?.bind (·.lists.lookup key)).getD []
      strings := (known[up]?.bind (·.stringLists.lookup key)).getD [] }
  | _ => {}

/-- Tells whether arguments start with a fixed text. -/
def startsWithWord : List Expr → Bool
  | .literal (.string _) :: _ => true
  | _ => false

mutual

/-- Tells whether a piece has a text wherever what is known holds. -/
def Piece.isSafe (known : List Known) : Piece → Bool
  | .text _ | .value _ => true
  | .call name args _ =>
    (name == "macro" && startsWithWord args) ||
      (name == "xref" && (args.any (·.isName known) || 2 ≤ args.countP (·.isText known)))
  | .choice test yes no => allSafe (learn known test) yes && allSafe known no
  | .repeat list body empty => allSafe (itemKnown known list :: known) body && allSafe known empty

/-- Tells whether pieces have a text wherever what is known holds. -/
def allSafe (known : List Known) : List Piece → Bool
  | [] => true
  | p :: ps => p.isSafe known && allSafe known ps

end

/-! ## Expressions -/

variable {known : List Known} {frames : List Frame}

theorem eval_path {up : Nat} {frame : Frame} (h : frames[up]? = some frame) (key : String) :
    (Expr.path up [key]).eval frames = member frame.value key := by
  unfold Expr.eval
  dsimp only
  rw [h]
  rfl

theorem Fits.isName_eval (h : Fits known frames) {e : Expr} (he : e.isName known = true) :
    IsName (e.eval frames) := by
  unfold Expr.isName at he
  split at he
  · next s => exact ⟨s, rfl, bne_iff_ne.1 he⟩
  · next up key =>
    obtain ⟨k, hk, hkey⟩ := Option.any_eq_true _ _ |>.1 he
    obtain ⟨frame, hframe, hholds⟩ := h.holds hk
    rw [eval_path hframe]
    exact hholds.names key (List.contains_iff_mem.1 hkey)
  · cases he

theorem Fits.isText_eval (h : Fits known frames) {e : Expr} (he : e.isText known = true) :
    IsText (e.eval frames) := by
  unfold Expr.isText at he
  split at he
  · next s => exact ⟨s, rfl⟩
  · next up key =>
    obtain ⟨k, hk, hkey⟩ := Option.any_eq_true _ _ |>.1 he
    obtain ⟨frame, hframe, hholds⟩ := h.holds hk
    rw [eval_path hframe]
    exact hholds.strings key (List.contains_iff_mem.1 hkey)
  · cases he

/-- A condition that counts as true tells that its value is there. -/
theorem Fits.learn (h : Fits known frames) {e : Expr} (he : isTrue (e.eval frames) = true) :
    Fits (learn known e) frames := by
  unfold Templates.learn
  split
  · next k ks key =>
    cases h with
    | cons hk hks =>
      refine .cons ?_ hks
      split
      · next hkey =>
        refine ⟨fun other hother => ?_, hk.texts, hk.lists, hk.strings, hk.stringLists⟩
        rcases List.mem_cons.1 hother with rfl | hother
        · exact hk.texts other (List.contains_iff_mem.1 hkey) he
        · exact hk.names other hother
      · exact hk
  · exact h

theorem mem_of_mem_lookup {α κ β : Type} [BEq κ] [LawfulBEq κ] {o : Option α}
    {lists : α → List (κ × List β)} {key : κ} {b : β}
    (h : b ∈ (o.bind fun a => (lists a).lookup key).getD []) :
    ∃ a bs, o = some a ∧ (key, bs) ∈ lists a ∧ b ∈ bs := by
  cases hl : o.bind fun a => (lists a).lookup key with
  | none =>
    rw [hl] at h
    exact absurd h List.not_mem_nil
  | some bs =>
    rw [hl] at h
    obtain ⟨a, ha, hbs⟩ := Option.bind_eq_some_iff.1 hl
    exact ⟨a, bs, ha, Source.mem_of_lookup hbs, h⟩

theorem Fits.itemKnown (h : Fits known frames) {e : Expr} {item : Frame}
    (hitem : item ∈ itemFrames (e.eval frames)) :
    (itemKnown known e).Holds item.value := by
  have hnothing := Known.holds_nothing item.value
  unfold Templates.itemKnown
  split
  · next up key =>
    refine ⟨fun name hname => ?_, hnothing.texts, hnothing.lists, fun name hname => ?_,
      hnothing.stringLists⟩
    · obtain ⟨k, keys, hk, hkeys, hmem⟩ := mem_of_mem_lookup hname
      obtain ⟨frame, hframe, hholds⟩ := h.holds hk
      rw [eval_path hframe] at hitem
      exact hholds.lists (key, keys) hkeys item hitem name hmem
    · obtain ⟨k, keys, hk, hkeys, hmem⟩ := mem_of_mem_lookup hname
      obtain ⟨frame, hframe, hholds⟩ := h.holds hk
      rw [eval_path hframe] at hitem
      exact hholds.stringLists (key, keys) hkeys item hitem name hmem
  · exact hnothing

/-! ## Helpers -/

theorem intercalate_ne_nil (sep : List Char) {texts : List (List Char)} {t : List Char}
    (ht : t ∈ texts) (hne : t ≠ []) : sep.intercalate texts ≠ [] := by
  induction texts with
  | nil => cases ht
  | cons a as ih =>
    cases as with
    | nil =>
      rw [List.intercalate_singleton, ← List.mem_singleton.1 ht]
      exact hne
    | cons b bs =>
      rw [List.intercalate_cons_cons]
      rcases List.mem_cons.1 ht with rfl | ht
      · exact fun he => hne (List.append_eq_nil_iff.1 (List.append_eq_nil_iff.1 he).1).1
      · exact fun he => ih ht (List.append_eq_nil_iff.1 he).2

/-- Texts that have something between them are not empty together. -/
theorem intercalate_ne_nil_of_length {sep : List Char} (hsep : sep ≠ [])
    {texts : List (List Char)} (h : 2 ≤ texts.length) : sep.intercalate texts ≠ [] := by
  rcases texts with _ | ⟨t, _ | ⟨u, texts⟩⟩
  · simp at h
  · simp at h
  · rw [List.intercalate_cons_cons]
    intro he
    exact hsep (List.append_eq_nil_iff.1 (List.append_eq_nil_iff.1 he).1).2

theorem length_argumentTexts {args : List Expr} (h : Fits known frames) :
    args.countP (·.isText known) ≤
      ((args.map (·.eval frames)).filterMap argumentText?).length := by
  induction args with
  | nil => exact Nat.le_refl 0
  | cons e args ih =>
    rw [List.countP_cons, List.map_cons]
    by_cases he : e.isText known = true
    · obtain ⟨s, hs⟩ := h.isText_eval he
      have hcounted : argumentText? (.string s) = some s := rfl
      rw [if_pos he, hs, List.filterMap_cons_some hcounted, List.length_cons]
      omega
    · rw [if_neg he]
      have hsublist := (List.sublist_cons_self (e.eval frames) (args.map (·.eval frames))).filterMap
        argumentText?
      exact Nat.le_trans ih hsublist.length_le

theorem exists_referenceHelper {args : List Json}
    (h : (∃ j ∈ args, IsName j) ∨ 2 ≤ (args.filterMap argumentText?).length) (suffix : Json) :
    ∃ text, referenceHelper args suffix = some text := by
  have hne : ".".toList.intercalate ((args.filterMap argumentText?).map String.toList) ≠ [] := by
    rcases h with ⟨j, hj, s, rfl, hs⟩ | h
    · have ht : s.toList ∈ (args.filterMap argumentText?).map String.toList :=
        List.mem_map_of_mem (List.mem_filterMap.2 ⟨_, hj, rfl⟩)
      exact intercalate_ne_nil ".".toList ht fun hnil => hs (String.toList_inj.1 hnil)
    · apply intercalate_ne_nil_of_length (by decide)
      rwa [List.length_map]
  unfold referenceHelper
  dsimp only
  split
  · next he =>
    refine absurd ?_ hne
    rw [← String.toList_intercalate, eq_of_beq he]
    rfl
  · exact ⟨_, rfl⟩

theorem exists_helper (h : Fits known frames) {name : String} {args : List Expr}
    (hsafe : ((name == "macro" && startsWithWord args) || (name == "xref" &&
      (args.any (·.isName known) || 2 ≤ args.countP (·.isText known)))) = true)
    (named : List (String × Json)) :
    ∃ text, helper? name (args.map (·.eval frames)) named = some text := by
  rw [Bool.or_eq_true, Bool.and_eq_true, Bool.and_eq_true] at hsafe
  rcases hsafe with ⟨hname, hargs⟩ | ⟨hname, hargs⟩
  · rw [eq_of_beq hname]
    unfold startsWithWord at hargs
    split at hargs
    · exact ⟨_, rfl⟩
    · cases hargs
  · rw [eq_of_beq hname]
    rw [Bool.or_eq_true, decide_eq_true_eq] at hargs
    apply exists_referenceHelper
    rcases hargs with hargs | hargs
    · obtain ⟨e, he, hisName⟩ := List.any_eq_true.1 hargs
      exact .inl ⟨_, List.mem_map_of_mem he, h.isName_eval hisName⟩
    · exact .inr (Nat.le_trans hargs (length_argumentTexts h))

/-! ## Pieces -/

theorem exists_mapM {α β : Type} {f : α → Option β} {as : List α}
    (h : ∀ a ∈ as, ∃ b, f a = some b) : ∃ bs, as.mapM f = some bs := by
  induction as with
  | nil => exact ⟨[], rfl⟩
  | cons a as ih =>
    obtain ⟨b, hb⟩ := h a List.mem_cons_self
    obtain ⟨bs, hbs⟩ := ih fun a ha => h a (List.mem_cons_of_mem _ ha)
    exact ⟨b :: bs, by rw [List.mapM_cons, hb, hbs]; rfl⟩

theorem forall_of_mapM {α β : Type} {f : α → Option β} {as : List α} {bs : List β}
    (h : as.mapM f = some bs) :
    (∀ a ∈ as, ∃ b, f a = some b) ∧ ∀ b ∈ bs, ∃ a ∈ as, f a = some b := by
  induction as generalizing bs with
  | nil =>
    rw [List.mapM_nil] at h
    cases h
    exact ⟨fun a ha => absurd ha List.not_mem_nil, fun b hb => absurd hb List.not_mem_nil⟩
  | cons c as ih =>
    rw [List.mapM_cons] at h
    obtain ⟨d, hd, h⟩ := Option.bind_eq_some_iff.1 h
    obtain ⟨ds, hds, h⟩ := Option.bind_eq_some_iff.1 h
    cases h
    obtain ⟨hleft, hright⟩ := ih hds
    refine ⟨List.forall_mem_cons.2 ⟨⟨d, hd⟩, hleft⟩, List.forall_mem_cons.2 ⟨?_, fun b hb => ?_⟩⟩
    · exact ⟨c, List.mem_cons_self, hd⟩
    · obtain ⟨a, ha, hab⟩ := hright b hb
      exact ⟨a, List.mem_cons_of_mem c ha, hab⟩

mutual

theorem Piece.exists_render : ∀ (p : Piece) {known : List Known} {frames : List Frame},
    Fits known frames → p.isSafe known = true → ∃ text, p.render? frames = some text
  | .text s, _, _, _, _ => ⟨s.toList, by rw [Piece.render?]⟩
  | .value e, _, frames, _, _ => ⟨valueText (e.eval frames), by rw [Piece.render?]⟩
  | .call name args named, _, frames, h, hs => by
    rw [Piece.isSafe] at hs
    rw [Piece.render?]
    obtain ⟨text, htext⟩ := exists_helper h hs (named.map fun (k, e) => (k, e.eval frames))
    rw [htext]
    exact ⟨text.toList, rfl⟩
  | .choice test yes no, _, _, h, hs => by
    rw [Piece.isSafe, Bool.and_eq_true] at hs
    rw [Piece.render?]
    split
    · next htest => exact exists_renderAll yes (h.learn htest) hs.1
    · exact exists_renderAll no h hs.2
  | .repeat list body empty, _, _, h, hs => by
    rw [Piece.isSafe, Bool.and_eq_true] at hs
    rw [Piece.render?]
    split
    · exact exists_renderAll empty h hs.2
    · obtain ⟨texts, htexts⟩ := exists_mapM fun item hitem =>
        exists_renderAll body (.cons (h.itemKnown hitem) h) hs.1
      rw [htexts]
      exact ⟨texts.flatten, rfl⟩

theorem exists_renderAll : ∀ (ps : List Piece) {known : List Known} {frames : List Frame},
    Fits known frames → allSafe known ps = true → ∃ text, renderAll? frames ps = some text
  | [], _, _, _, _ => ⟨[], by rw [renderAll?]⟩
  | p :: ps, _, _, h, hs => by
    rw [allSafe, Bool.and_eq_true] at hs
    obtain ⟨text, htext⟩ := p.exists_render h hs.1
    obtain ⟨rest, hrest⟩ := exists_renderAll ps h hs.2
    rw [renderAll?, htext, hrest]
    exact ⟨text ++ rest, rfl⟩

end

/-- **A template that passes the test has a text for every value of which holds what is
known.** -/
theorem exists_render {k : Known} {t : Template} (ht : allSafe [k] t = true) {data : Json}
    (hk : k.Holds data) : ∃ text, render? t data = some text := by
  have hfits : Fits [k] [⟨data, []⟩] := .cons hk .nil
  obtain ⟨text, htext⟩ := exists_renderAll t hfits ht
  unfold render?
  rw [htext]
  exact ⟨_, rfl⟩

/-! ## The built-in templates -/

/-- What is known about the values that pages are made from. -/
def pageKnown : Known where
  names := ["interfaceName"]
  texts := ["parentName", "eventInterfaceName", "parentEventInterfaceName"]
  lists := [("eventProperties", ["name"])]

/-- **The built-in templates are safe.** -/
theorem builtIn_isSafe (n : TemplateName) : allSafe [pageKnown] (builtIn n) = true := by
  cases n <;> decide +kernel

end IdlDocs.Templates
