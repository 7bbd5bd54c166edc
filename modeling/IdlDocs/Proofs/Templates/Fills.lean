import IdlDocs.Proofs.Templates.BuiltIn
import IdlDocs.Templates.Rendering
import Mathlib.Data.List.Forall2

/-!
# The texts of pieces

What a template says about each kind of piece, as one relation between pieces and texts.  A text
is determined by the pieces, so that a piece and its text can be taken off the front of both.

* `renderAll?_cons_eq_some`, `renderAll?_append_eq_some`: the text of a row of pieces is made of
  the texts of its parts.
* `Fills`: **pieces have a text.**
* `Fills.cons_iff`: taking the text of the first piece off the front.
* `Fills.value`, `Fills.choice`, `Fills.callMacro`, `Fills.refer`: the kinds of pieces.
* `eachText`, `Fills.each`: **a part that is repeated for a list**, of which only the first item
  is told apart.
-/

namespace IdlDocs.Templates

/-! ## Rows of pieces -/

theorem renderAll?_cons_eq_some {frames : List Frame} {p : Piece} {ps : List Piece}
    {text : List Char} :
    renderAll? frames (p :: ps) = some text ↔ ∃ s t, p.render? frames = some s ∧
      renderAll? frames ps = some t ∧ s ++ t = text := by
  rw [renderAll?]
  constructor
  · intro h
    obtain ⟨s, hs, h⟩ := Option.bind_eq_some_iff.1 h
    obtain ⟨t, ht, h⟩ := Option.bind_eq_some_iff.1 h
    cases h
    exact ⟨s, t, hs, ht, rfl⟩
  · rintro ⟨s, t, hs, ht, rfl⟩
    rw [hs, ht]
    rfl

theorem renderAll?_append_eq_some {frames : List Frame} {ps qs : List Piece} {text : List Char} :
    renderAll? frames (ps ++ qs) = some text ↔ ∃ s t, renderAll? frames ps = some s ∧
      renderAll? frames qs = some t ∧ s ++ t = text := by
  induction ps generalizing text with
  | nil =>
    constructor
    · intro h
      exact ⟨[], text, by rw [renderAll?], h, rfl⟩
    · rintro ⟨s, t, hs, ht, rfl⟩
      rw [renderAll?] at hs
      cases hs
      exact ht
  | cons p ps ih =>
    rw [List.cons_append, renderAll?_cons_eq_some]
    constructor
    · rintro ⟨s, t, hs, ht, rfl⟩
      obtain ⟨u, v, hu, hv, rfl⟩ := ih.1 ht
      exact ⟨s ++ u, v, renderAll?_cons_eq_some.2 ⟨s, u, hs, hu, rfl⟩, hv, List.append_assoc s u v⟩
    · rintro ⟨su, v, hsu, hv, rfl⟩
      obtain ⟨s, u, hs, hu, rfl⟩ := renderAll?_cons_eq_some.1 hsu
      exact ⟨s, u ++ v, hs, ih.2 ⟨u, v, hu, hv, rfl⟩, (List.append_assoc s u v).symm⟩

def Fills (frames : List Frame) (ps : List Piece) (text : String) : Prop :=
  renderAll? frames ps = some text.toList

/-! ## Values of expressions -/

variable {frames : List Frame}

theorem eval_valueOf {item : Frame} {j : Json} (h : item.value = j) (k : String) :
    (valueOf k).eval (item :: frames) = member j k := by
  subst h
  rfl

theorem eval_first {item : Frame} {b : Bool} (h : item.marks.lookup "first" = some (.bool b)) :
    (Expr.mark "first").eval (item :: frames) = .bool b := by
  unfold Expr.eval
  dsimp only [List.head?_cons, Option.bind_some]
  rw [h]
  rfl

theorem isTrue_bool (b : Bool) : isTrue (.bool b) = b := rfl

/-- A text that may be absent counts as true if it is there and not empty. -/
theorem isTrue_stringOrNull (s : Option String) :
    isTrue (Json.stringOrNull s) = decide (s.getD "" ≠ "") := by
  cases s with
  | none => rfl
  | some s =>
    rw [decide_not]
    rfl

theorem argumentTexts_stringOrNull (s : Option String) :
    [Json.stringOrNull s].filterMap argumentText? = s.toList := by
  cases s <;> rfl

/-! ## Kinds of pieces -/

namespace Fills

variable {p : Piece} {ps qs : List Piece} {e : Expr} {s t : String}

theorem nil : Fills frames [] "" := by
  unfold Fills
  rw [renderAll?]
  rfl

theorem of_render (h : p.render? frames = some s.toList) : Fills frames [p] s :=
  renderAll?_cons_eq_some.2 ⟨_, [], h, by rw [renderAll?], List.append_nil _⟩

theorem append (hps : Fills frames ps s) (hqs : Fills frames qs t) :
    Fills frames (ps ++ qs) (s ++ t) :=
  renderAll?_append_eq_some.2 ⟨_, _, hps, hqs, String.toList_append.symm⟩

/-- **The text of the first piece stands in front of the text of the others.** -/
theorem cons_iff (hp : Fills frames [p] s) :
    Fills frames (p :: ps) (s ++ t) ↔ Fills frames ps t := by
  constructor
  · intro h
    have happend : renderAll? frames ([p] ++ ps) = some (s ++ t).toList := h
    obtain ⟨s', t', hs', ht', htext⟩ := renderAll?_append_eq_some.1 happend
    cases hp.symm.trans hs'
    rw [String.toList_append] at htext
    cases List.append_cancel_left htext
    exact ht'
  · exact hp.append

theorem text (s : String) : Fills frames [.text s] s := by
  refine of_render ?_
  rw [Piece.render?]

theorem value (h : e.eval frames = .string s) : Fills frames [.value e] s := by
  refine of_render ?_
  rw [Piece.render?, h]
  rfl

/-- A text that is absent is inserted as an empty one. -/
theorem valueOrNull {s : Option String} (h : e.eval frames = Json.stringOrNull s) :
    Fills frames [.value e] (s.getD "") := by
  refine of_render ?_
  rw [Piece.render?, h]
  cases s <;> rfl

theorem choice {yes no : List Piece} {b : Bool} (h : isTrue (e.eval frames) = b)
    (hyes : Fills frames yes s) (hno : Fills frames no t) :
    Fills frames [.choice e yes no] (if b then s else t) := by
  refine of_render ?_
  rw [Piece.render?, h]
  cases b with
  | true => exact hyes
  | false => exact hno

theorem callMacro {name : String} {args : List Expr} {texts : List String}
    (h : (args.map (·.eval frames)).filterMap argumentText? = texts) :
    Fills frames [callMacro name args] (macroCall name texts) := by
  subst h
  refine of_render ?_
  unfold Templates.callMacro
  rw [Piece.render?]
  rfl

theorem plainMacro (name : String) :
    Fills frames [Templates.callMacro name []] (macroCall name []) := callMacro rfl

theorem refer (h : e.eval frames = .string s) (hs : s ≠ "") :
    Fills frames [refer [e]] (pageReference s) := by
  have htarget : ".".intercalate [s] = s := String.intercalate_singleton
  refine of_render ?_
  unfold Templates.refer
  rw [Piece.render?, List.map_singleton, h]
  change (referenceHelper [.string s] .null).map String.toList = _
  unfold referenceHelper
  change (if (".".intercalate [s] == "") = true then none
    else some (pageReference (".".intercalate [s] ++ ""))).map String.toList = _
  rw [htarget, String.append_empty, if_neg (fun h => hs (eq_of_beq h)), Option.map_some]

end Fills

/-! ## Repeated parts -/

section Each

variable {α : Type} {toJson : α → Json} {body empty : List Piece} {list : Expr}
  {itemText : Bool → α → String} {emptyText : String}

/-- The text of a part for each item of a list, where the first item is told apart. -/
def eachText (itemText : Bool → α → String) (emptyText : String) : List α → String
  | [] => emptyText
  | a :: as => itemText true a ++ String.join (as.map (itemText false))

/-- The frame of an item, which is the first one or a later one. -/
structure IsItem (toJson : α → Json) (isFirst : Bool) (item : Frame) (a : α) : Prop where
  value : item.value = toJson a
  first : item.marks.lookup "first" = some (.bool isFirst)

theorem forall₂_later (as : List α) (m n : Nat) :
    List.Forall₂ (IsItem toJson false)
      (((as.map toJson).zipIdx (n + 1)).map fun x =>
        ⟨x.1, ("index", .nat x.2) :: placeMarks m x.2⟩) as := by
  induction as generalizing n with
  | nil => exact .nil
  | cons a as ih => exact .cons ⟨rfl, rfl⟩ (ih (n + 1))

theorem exists_itemFrames (toJson : α → Json) (a : α) (as : List α) :
    ∃ item items, itemFrames (.array ((a :: as).map toJson)) = item :: items ∧
      IsItem toJson true item a ∧ List.Forall₂ (IsItem toJson false) items as :=
  ⟨_, _, rfl, ⟨rfl, rfl⟩, forall₂_later as _ 0⟩

theorem mapM_of_forall₂ {items : List Frame} {as : List α} {text : α → String}
    (h : List.Forall₂ (fun item a => Fills (item :: frames) body (text a)) items as) :
    items.mapM (fun item => renderAll? (item :: frames) body) =
      some (as.map fun a => (text a).toList) := by
  induction h with
  | nil => rfl
  | cons hfirst _ ih =>
    unfold Fills at hfirst
    rw [List.mapM_cons, hfirst, ih]
    rfl

/-- **A part that is repeated for a list.** -/
theorem Fills.each {as : List α}
    (hlist : itemFrames (list.eval frames) = itemFrames (.array (as.map toJson)))
    (hbody : ∀ isFirst a item, IsItem toJson isFirst item a →
      Fills (item :: frames) body (itemText isFirst a))
    (hempty : Fills frames empty emptyText) :
    Fills frames [.repeat list body empty] (eachText itemText emptyText as) := by
  refine .of_render ?_
  rw [Piece.render?, hlist]
  cases as with
  | nil => exact hempty
  | cons a as =>
    obtain ⟨item, items, hframes, hitem, hitems⟩ := exists_itemFrames toJson a as
    have hfirst := hbody true a item hitem
    have hlater := mapM_of_forall₂ (hitems.imp fun item a h => hbody false a item h)
    unfold Fills at hfirst
    rw [hframes]
    dsimp only
    rw [List.mapM_cons, hfirst, hlater]
    change some (_ ++ List.flatten _) = some (String.toList (_ ++ String.join _))
    rw [String.toList_append, String.toList_join, List.flatMap_map]
    rfl

/-- A part that does not tell the first item apart. -/
theorem eachText_const (text : α → String) {as : List α} (h : as ≠ []) :
    eachText (fun _ => text) emptyText as = String.join (as.map text) := by
  cases as with
  | nil => exact absurd rfl h
  | cons a as => rw [eachText, List.map_cons, String.join_cons]

/-- A part that puts a separator in front of all items but the first. -/
theorem eachText_separated (sep : String) (text : α → String) (as : List α) :
    eachText (fun isFirst a => (if isFirst then "" else sep) ++ text a) "" as =
      sep.intercalate (as.map text) := by
  cases as with
  | nil => rw [eachText, List.map_nil, String.intercalate_nil]
  | cons a as =>
    rw [eachText, if_pos rfl, String.empty_append, List.map_cons]
    -- on the text of the first item, with the items behind it
    induction as generalizing a with
    | nil => rw [List.map_nil, List.map_nil, String.join_nil, String.append_empty,
        String.intercalate_singleton]
    | cons b as ih =>
      rw [List.map_cons, List.map_cons, String.join_cons, String.intercalate_cons_cons, ← ih b,
        if_neg Bool.false_ne_true, String.append_assoc, String.append_assoc]

end Each

end IdlDocs.Templates
