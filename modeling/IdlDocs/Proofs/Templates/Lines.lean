import IdlDocs.Proofs.Description.Layout
import IdlDocs.Proofs.Templates.Safe

/-!
# The lines that templates write

Where the values that a template writes are in one line, its lines are those of its texts.
Whether one of them is of a certain kind is seen from the template: a line that has begun with
another character than those of the kind is not of the kind, whichever value follows in it.

* `LineKind`: kinds of lines that are told from their first character.
* `Spot`, `Passes`: where a line stands, and what a text makes of it.
* `Words`, `Words.Holds`: what is known to be in one line.
* `Piece.spot?`, `spotAfter?`: the test on templates.
* `exists_lines`: **templates that pass the test write no line of the kind.**
-/

namespace IdlDocs.Templates

open Text

/-! ## Kinds of lines -/

/-- A kind of lines that is told from their first character. -/
structure LineKind where
  has : List Char → Bool
  /-- What lines of the kind start with. -/
  leads : List Char
  mem_leads : ∀ {c : Char} {cs : List Char}, has (c :: cs) = true → c ∈ leads

/-- Where in a line a text ends. -/
inductive Spot
  /-- At its start. -/
  | fresh
  /-- Behind a character that no line of the kind starts with. -/
  | busy
deriving DecidableEq

variable {k : LineKind} {a b c : Spot} {cur s t : List Char}

def Spot.Holds (k : LineKind) : Spot → List Char → Prop
  | fresh, cur => cur = []
  | busy, cur => '\n' ∉ cur ∧ ∃ c cs, cur = c :: cs ∧ c ∉ k.leads

theorem Spot.Holds.notMem (h : a.Holds k cur) : '\n' ∉ cur := by
  cases a with
  | fresh =>
    rw [show cur = [] from h]
    exact List.not_mem_nil
  | busy => exact h.1

/-- A text that is written at spot `a` leads to spot `b`, and the lines that it completes are
not of the kind. -/
def Passes (k : LineKind) (a : Spot) (s : List Char) (b : Spot) : Prop :=
  ∀ cur, a.Holds k cur → ∃ ls last, parts '\n' (cur ++ s) = ls ++ [last] ∧
    (∀ line ∈ ls, k.has line = false) ∧ b.Holds k last

namespace Passes

theorem nil : Passes k a [] a := by
  intro cur hcur
  refine ⟨[], cur, ?_, fun line hline => absurd hline List.not_mem_nil, hcur⟩
  rw [List.append_nil, parts_of_notMem hcur.notMem]
  rfl

theorem append (hs : Passes k a s b) (ht : Passes k b t c) : Passes k a (s ++ t) c := by
  intro cur hcur
  obtain ⟨ls, mid, hmid, hls, hspot⟩ := hs cur hcur
  obtain ⟨ms, last, hlast, hms, hend⟩ := ht mid hspot
  refine ⟨ls ++ ms, last, ?_, List.forall_mem_append.2 ⟨hls, hms⟩, hend⟩
  rw [← List.append_assoc, parts_append_last hmid, hlast, List.append_assoc]

theorem flatten {texts : List (List Char)} (h : ∀ t ∈ texts, Passes k a t a) :
    Passes k a texts.flatten a := by
  induction texts with
  | nil => exact nil
  | cons t texts ih =>
    rw [List.forall_mem_cons] at h
    exact h.1.append (ih h.2)

/-- A text in one line goes on in a line that has begun. -/
theorem inline (hs : '\n' ∉ s) : Passes k .busy s .busy := by
  intro cur hcur
  obtain ⟨hn, c, cs, rfl, hc⟩ := hcur
  have hline : '\n' ∉ c :: cs ++ s := by
    rw [List.mem_append, not_or]
    exact ⟨hn, hs⟩
  refine ⟨[], _, parts_of_notMem hline, fun line hl => absurd hl List.not_mem_nil, hline, c,
    cs ++ s, rfl, hc⟩

/-- A text in one line may begin a line if no line of the kind starts as it does. -/
theorem begin {c : Char} {cs : List Char} (hs : '\n' ∉ c :: cs) (hc : c ∉ k.leads) :
    Passes k a (c :: cs) .busy := by
  cases a with
  | busy => exact inline hs
  | fresh =>
    intro cur hcur
    rw [show cur = [] from hcur]
    exact ⟨[], c :: cs, parts_of_notMem hs, fun line hl => absurd hl List.not_mem_nil, hs, c, cs,
      rfl, hc⟩

end Passes

/-! ## Fixed texts -/

def Spot.ofLine? (k : LineKind) : List Char → Option Spot
  | [] => some fresh
  | c :: _ => if k.leads.contains c then none else some busy

def Spot.after? (k : LineKind) (a : Spot) : List (List Char) → Option Spot
  | [] => none
  | [p] => if a = busy then some busy else ofLine? k p
  | p :: ps => if a = fresh ∧ k.has p = true then none else after? k fresh ps

theorem Spot.holds_of_ofLine {p : List Char} (hp : '\n' ∉ p) (h : Spot.ofLine? k p = some b) :
    b.Holds k p := by
  cases p with
  | nil => cases h; rfl
  | cons c cs =>
    rw [Spot.ofLine?] at h
    split at h
    · cases h
    · next hc =>
      cases h
      exact ⟨hp, c, cs, rfl, by simpa using hc⟩

/-- A line that is complete is not of the kind, whether it has begun before or not. -/
theorem Spot.Holds.has_append (hcur : a.Holds k cur) {p : List Char}
    (hp : ¬(a = .fresh ∧ k.has p = true)) : k.has (cur ++ p) = false := by
  cases a with
  | fresh =>
    rw [show cur = [] from hcur, List.nil_append]
    simpa using hp
  | busy =>
    obtain ⟨-, c, cs, rfl, hc⟩ := hcur
    by_contra hhas
    have hline : k.has (c :: (cs ++ p)) = true := by simpa using hhas
    exact hc (k.mem_leads hline)

/-- By induction on the lines: the first of them goes on in the line that is there. -/
theorem Spot.exists_of_after {p : List Char} {ps : List (List Char)}
    (h : a.after? k (p :: ps) = some b) (hcur : a.Holds k cur) (hp : '\n' ∉ p)
    (hps : ∀ q ∈ ps, '\n' ∉ q) :
    ∃ ls last, (cur ++ p) :: ps = ls ++ [last] ∧ (∀ line ∈ ls, k.has line = false) ∧
      b.Holds k last := by
  induction ps generalizing a cur p with
  | nil =>
    refine ⟨[], cur ++ p, rfl, fun line hl => absurd hl List.not_mem_nil, ?_⟩
    unfold Spot.after? at h
    cases a with
    | fresh =>
      rw [if_neg (by simp)] at h
      rw [show cur = [] from hcur]
      exact holds_of_ofLine hp h
    | busy =>
      cases h
      obtain ⟨hn, c, cs, rfl, hc⟩ := hcur
      refine ⟨?_, c, cs ++ p, rfl, hc⟩
      rw [List.mem_append, not_or]
      exact ⟨hn, hp⟩
  | cons q ps ih =>
    unfold Spot.after? at h
    by_cases hkind : a = .fresh ∧ k.has p = true
    · rw [if_pos hkind] at h
      cases h
    · rw [if_neg hkind] at h
      rw [List.forall_mem_cons] at hps
      obtain ⟨ls, last, hls, hfree, hend⟩ :=
        ih h (show Spot.Holds k .fresh [] from rfl) hps.1 hps.2
      rw [List.nil_append] at hls
      refine ⟨(cur ++ p) :: ls, last, ?_, ?_, hend⟩
      · rw [hls, List.cons_append]
      · exact List.forall_mem_cons.2 ⟨hcur.has_append hkind, hfree⟩

theorem Passes.text (h : a.after? k (parts '\n' s) = some b) : Passes k a s b := by
  intro cur hcur
  obtain ⟨p, ps, hp⟩ := List.exists_cons_of_ne_nil (parts_ne_nil '\n' s)
  have hmem : ∀ q ∈ p :: ps, '\n' ∉ q := fun q hq => notMem_of_mem_parts (hp ▸ hq)
  rw [hp] at h
  rw [parts_append_of_notMem hcur.notMem hp]
  rw [List.forall_mem_cons] at hmem
  exact Spot.exists_of_after h hcur hmem.1 hmem.2

/-! ## What is in one line -/

/-- A value that is written in one line: a text without line breaks, or nothing. -/
def IsInline (j : Json) : Prop := j = .null ∨ ∃ s, j = .string s ∧ IsUnbroken s

theorem isInline_string {s : String} (h : IsUnbroken s) : IsInline (.string s) := .inr ⟨s, rfl, h⟩

theorem IsInline.notMem_valueText {j : Json} (h : IsInline j) : '\n' ∉ valueText j := by
  rcases h with rfl | ⟨s, rfl, hs⟩
  · exact List.not_mem_nil
  · exact hs

theorem IsInline.isUnbroken_argumentText {j : Json} (h : IsInline j) {s : String}
    (hs : argumentText? j = some s) : IsUnbroken s := by
  rcases h with rfl | ⟨u, rfl, hu⟩
  · cases hs
  · cases hs
    exact hu

/-- What is known to be in one line in a value. -/
structure Words where
  /-- The keys that lead to it. -/
  paths : List (List String) := []
  /-- The keys that lead to lists, with the keys that lead to it in each item. -/
  lists : List (List String × List (List String)) := []

/-- What is known holds of a value. -/
structure Words.Holds (w : Words) (j : Json) : Prop where
  paths : ∀ path ∈ w.paths, IsInline (path.foldl member j)
  lists : ∀ list ∈ w.lists, ∀ item ∈ itemFrames (list.1.foldl member j), ∀ path ∈ list.2,
    IsInline (path.foldl member item.value)

def Words.Fit (known : List Words) (frames : List Frame) : Prop :=
  List.Forall₂ (fun w frame => w.Holds frame.value) known frames

variable {known : List Words} {frames : List Frame}

theorem Words.Fit.holds (h : Words.Fit known frames) {up : Nat} {w : Words}
    (hw : known[up]? = some w) : ∃ frame, frames[up]? = some frame ∧ w.Holds frame.value :=
  exists_of_forall₂ h hw

/-- Tells whether the value of an expression is known to be in one line. -/
def Expr.isInline (known : List Words) : Expr → Bool
  | literal (.string s) => decide (IsUnbroken s)
  | path up keys => known[up]?.any (·.paths.contains keys)
  | _ => false

def itemWords (known : List Words) : Expr → Words
  | .path up keys => { paths := (known[up]?.bind (·.lists.lookup keys)).getD [] }
  | _ => {}

theorem eval_keys {up : Nat} {frame : Frame} (h : frames[up]? = some frame)
    (keys : List String) : (Expr.path up keys).eval frames = keys.foldl member frame.value := by
  unfold Expr.eval
  dsimp only
  rw [h]

theorem Words.Fit.isInline_eval (h : Words.Fit known frames) {e : Expr}
    (he : e.isInline known = true) : IsInline (e.eval frames) := by
  unfold Expr.isInline at he
  split at he
  · next s => exact isInline_string (of_decide_eq_true he)
  · next up keys =>
    obtain ⟨w, hw, hkeys⟩ := Option.any_eq_true _ _ |>.1 he
    obtain ⟨frame, hframe, hholds⟩ := h.holds hw
    rw [eval_keys hframe]
    exact hholds.paths keys (List.contains_iff_mem.1 hkeys)
  · cases he

theorem Words.holds_nothing (j : Json) : Words.Holds {} j :=
  ⟨fun _ h => absurd h List.not_mem_nil, fun _ h => absurd h List.not_mem_nil⟩

theorem Words.Fit.itemWords (h : Words.Fit known frames) {e : Expr} {item : Frame}
    (hitem : item ∈ itemFrames (e.eval frames)) : (itemWords known e).Holds item.value := by
  unfold Templates.itemWords
  split
  · next up keys =>
    refine ⟨fun path hpath => ?_, (Words.holds_nothing item.value).lists⟩
    obtain ⟨w, paths, hw, hpaths, hmem⟩ := mem_of_mem_lookup hpath
    obtain ⟨frame, hframe, hholds⟩ := h.holds hw
    rw [eval_keys hframe] at hitem
    exact hholds.lists (keys, paths) hpaths item hitem path hmem
  · exact Words.holds_nothing item.value

/-! ## Helpers -/

theorem exists_macroCall (name : String) (args : List String) :
    ∃ cs, (macroCall name args).toList = '\x7b' :: cs := by
  unfold macroCall
  dsimp only
  rw [String.toList_append, String.toList_append, String.toList_append]
  exact ⟨_, rfl⟩

theorem isUnbroken_argumentTexts {args : List Json} (h : ∀ j ∈ args, IsInline j) :
    ∀ s ∈ args.filterMap argumentText?, IsUnbroken s := by
  intro s hs
  obtain ⟨j, hj, hjs⟩ := List.mem_filterMap.1 hs
  exact (h j hj).isUnbroken_argumentText hjs

/-- **What a helper gives is the call of a macro in one line**, if its arguments are in one
line. -/
theorem exists_of_helper {name : String} {args : List Json} {named : List (String × Json)}
    (hargs : ∀ j ∈ args, IsInline j) (hnamed : ∀ x ∈ named, IsInline x.2) {text : String}
    (h : helper? name args named = some text) :
    IsUnbroken text ∧ ∃ cs, text.toList = '\x7b' :: cs := by
  unfold helper? at h
  split at h
  · unfold macroHelper at h
    obtain ⟨j, hj, h⟩ := Option.bind_eq_some_iff.1 h
    obtain ⟨macroName, hname, h⟩ := Option.bind_eq_some_iff.1 h
    cases h
    refine ⟨isUnbroken_macroCall ?_ ?_, exists_macroCall _ _⟩
    · exact (hargs j (List.mem_of_head? hj)).isUnbroken_argumentText hname
    · exact isUnbroken_argumentTexts fun j hj => hargs j (List.mem_of_mem_tail hj)
  · split at h
    · unfold referenceHelper at h
      dsimp only at h
      split at h
      · cases h
      · cases h
        refine ⟨isUnbroken_pageReference (.append ?_ ?_), exists_macroCall _ _⟩
        · exact .intercalate (by decide) (isUnbroken_argumentTexts hargs)
        · have hsuffix : IsInline ((named.lookup "suffix").getD .null) := by
            cases hl : named.lookup "suffix" with
            | none => exact .inl rfl
            | some j => exact hnamed ("suffix", j) (Source.mem_of_lookup hl)
          cases hs : argumentText? ((named.lookup "suffix").getD .null) with
          | none => exact (by decide : IsUnbroken "")
          | some s => exact hsuffix.isUnbroken_argumentText hs
    · cases h

/-! ## Pieces -/

mutual

def Piece.spot? (k : LineKind) (known : List Words) (a : Spot) : Piece → Option Spot
  | .text s => a.after? k (parts '\n' s.toList)
  | .value e => if a = .busy && e.isInline known then some .busy else none
  | .call _ args named =>
    if !k.leads.contains '\x7b' && args.all (·.isInline known) && named.all (·.2.isInline known)
    then some .busy else none
  | .choice _ yes no =>
    if spotAfter? k known a yes = spotAfter? k known a no then spotAfter? k known a yes else none
  | .repeat list body empty =>
    if spotAfter? k (itemWords known list :: known) a body = some a &&
      spotAfter? k known a empty = some a then some a else none

def spotAfter? (k : LineKind) (known : List Words) (a : Spot) : List Piece → Option Spot
  | [] => some a
  | p :: ps => (p.spot? k known a).bind fun b => spotAfter? k known b ps

end

mutual

theorem Piece.passes : ∀ (p : Piece) {known : List Words} {frames : List Frame} {a b : Spot},
    Words.Fit known frames → p.spot? k known a = some b → ∀ {text : List Char},
      p.render? frames = some text → Passes k a text b
  | .text s, _, _, _, _, _, hb, _, ht => by
    rw [Piece.spot?] at hb
    rw [Piece.render?] at ht
    cases ht
    exact .text hb
  | .value e, _, _, _, _, h, hb, _, ht => by
    rw [Piece.spot?] at hb
    rw [Piece.render?] at ht
    cases ht
    split at hb
    · next hinline =>
      rw [Bool.and_eq_true, decide_eq_true_eq] at hinline
      cases hb
      rw [hinline.1]
      exact .inline (h.isInline_eval hinline.2).notMem_valueText
    · cases hb
  | .call name args named, _, frames, _, _, h, hb, _, ht => by
    rw [Piece.spot?] at hb
    rw [Piece.render?] at ht
    split at hb
    · next hinline =>
      rw [Bool.and_eq_true, Bool.and_eq_true, List.all_eq_true, List.all_eq_true] at hinline
      cases hb
      obtain ⟨text, htext, rfl⟩ := Option.map_eq_some_iff.1 ht
      have hargs := List.forall_mem_map.2 fun e he => h.isInline_eval (hinline.1.2 e he)
      have hnamed : ∀ x ∈ named.map fun (key, e) => (key, e.eval frames), IsInline x.2 :=
        List.forall_mem_map.2 fun x hx => h.isInline_eval (hinline.2 x hx)
      obtain ⟨hunbroken, cs, hcs⟩ := exists_of_helper hargs hnamed htext
      unfold IsUnbroken at hunbroken
      rw [hcs] at hunbroken ⊢
      exact .begin hunbroken (by simpa using hinline.1.1)
    · cases hb
  | .choice test yes no, _, _, _, _, h, hb, _, ht => by
    rw [Piece.spot?] at hb
    rw [Piece.render?] at ht
    split at hb
    · next heq =>
      split at ht
      · exact passesAll yes h hb ht
      · exact passesAll no h (heq ▸ hb) ht
    · cases hb
  | .repeat list body empty, _, _, _, _, h, hb, _, ht => by
    rw [Piece.spot?] at hb
    rw [Piece.render?] at ht
    split at hb
    · next hspots =>
      rw [Bool.and_eq_true, decide_eq_true_eq, decide_eq_true_eq] at hspots
      cases hb
      split at ht
      · exact passesAll empty h hspots.2 ht
      · obtain ⟨texts, htexts, rfl⟩ := Option.map_eq_some_iff.1 ht
        refine .flatten fun t hmem => ?_
        obtain ⟨item, hitem, hbody⟩ := (forall_of_mapM htexts).2 t hmem
        exact passesAll body (.cons (h.itemWords hitem) h) hspots.1 hbody
    · cases hb

theorem passesAll : ∀ (ps : List Piece) {known : List Words} {frames : List Frame} {a b : Spot},
    Words.Fit known frames → spotAfter? k known a ps = some b → ∀ {text : List Char},
      renderAll? frames ps = some text → Passes k a text b
  | [], _, _, _, _, _, hb, _, ht => by
    rw [spotAfter?] at hb
    rw [renderAll?] at ht
    cases hb
    cases ht
    exact .nil
  | p :: ps, _, _, _, _, h, hb, _, ht => by
    rw [spotAfter?] at hb
    rw [renderAll?] at ht
    obtain ⟨mid, hmid, hb⟩ := Option.bind_eq_some_iff.1 hb
    obtain ⟨first, hfirst, ht⟩ := Option.bind_eq_some_iff.1 ht
    obtain ⟨rest, hrest, ht⟩ := Option.bind_eq_some_iff.1 ht
    cases ht
    exact (p.passes h hmid hfirst).append (passesAll ps h hb hrest)

end

/-- **A template that passes the test writes complete lines, none of them of the kind**, for
every value of which holds what is known. -/
theorem exists_lines {w : Words} {ps : List Piece} (hps : spotAfter? k [w] .fresh ps = some .fresh)
    {data : Json} (hw : w.Holds data) {text : List Char}
    (ht : renderAll? [⟨data, []⟩] ps = some text) :
    ∃ ls, IsLines ls text ∧ ∀ line ∈ ls, k.has line = false := by
  have hfit : Words.Fit [w] [⟨data, []⟩] := .cons hw .nil
  obtain ⟨ls, last, hls, hfree, hlast⟩ := passesAll ps hfit hps ht [] rfl
  rw [show last = [] from hlast] at hls
  exact ⟨ls, hls, hfree⟩

end IdlDocs.Templates
