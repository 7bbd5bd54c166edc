import IdlDocs.Idl.Equality
import IdlDocs.Proofs.Description.Complete
import IdlDocs.Proofs.Interfaces.Agreement

/-!
# Parents within documents and on their own

The document of an interface may hold the own text of the parent, or leave it out, so that the
document of the parent has to be looked up.  What is described does not depend on what a document
holds of its parent, and of the parent's document only the own text is read.

* `Library.SameButParents`: the same documents but for what they hold of their parents.
* `foundAt_memberGroups_of_shows`: the four lists of a set of fragments are the same.
* `answerAt_overview_of_parent`: an overview by the definitions of the parent.
* `overview_of_parentText`: **an overview is the same with and without the text of the parent**, and
  lists of the parent what its own text defines.
-/

namespace IdlDocs

open Idl

variable {l l' : Library} {r r' : Registry}

/-! ## Documents but for their parents -/

def Document.withoutParent (d : Document) : Document := { d with parent := none }

theorem Document.kind_withoutParent (d : Document) : d.withoutParent.kind = d.kind := rfl

theorem Document.combined_withoutParent (d : Document) : d.withoutParent.combined = d.combined :=
  rfl

/-- Two libraries, each at a registry, have the same documents but for what these hold of their
parents, and cannot load the same ones. -/
def Library.SameButParents (l : Library) (r : Registry) (l' : Library) (r' : Registry) : Prop :=
  ∀ name, (l.documentAt r name).map Document.withoutParent =
    (l'.documentAt r' name).map Document.withoutParent

namespace Library.SameButParents

theorem symm (h : l.SameButParents r l' r') : l'.SameButParents r' l r := fun name => (h name).symm

theorem exists_document (h : l.SameButParents r l' r') {name : String} {d : Document}
    (hd : l.documentAt r name = .ok d) :
    ∃ d', l'.documentAt r' name = .ok d' ∧ d'.withoutParent = d.withoutParent := by
  have hname := h name
  rw [hd] at hname
  exact map_eq_ok_iff.1 hname.symm

theorem showsAs (h : l.SameButParents r l' r') : l.ShowsAs r l' r' := by
  -- One direction is enough, as the relation is symmetric.
  have hmp : ∀ {l l' : Library} {r r' : Registry}, l.SameButParents r l' r' →
      ∀ name kind fs, l.Shows r name kind fs → l'.Shows r' name kind fs := by
    intro l l' r r' h name kind fs ⟨d, hd, hk, hp⟩
    obtain ⟨d', hd', hsame⟩ := h.exists_document hd
    refine ⟨d', hd', ?_, ?_⟩
    · rw [← d'.kind_withoutParent, hsame, d.kind_withoutParent, hk]
    · rw [← d'.combined_withoutParent, hsame, d.combined_withoutParent, hp]
  intro name kind fs
  exact ⟨hmp h name kind fs, hmp h.symm name kind fs⟩

end Library.SameButParents

/-! ## What is listed -/

theorem foundAt_propertyEntry_of_shows (h : l.ShowsAs r l' r') (m : Member) :
    foundAt l r (propertyEntry m) = foundAt l' r' (propertyEntry m) := by
  have htype : foundAt l r (typeText m) = foundAt l' r' (typeText m) := by
    unfold typeText
    cases m.type with
    | none => rfl
    | some t =>
      dsimp only
      rw [foundAt_formatType, foundAt_formatType, foundAt_describe_of_shows h t]
  rw [foundAt_propertyEntry, foundAt_propertyEntry, htype]

/-- **Libraries that show the same have the same four lists** for a set of fragments. -/
theorem foundAt_memberGroups_of_shows (h : l.ShowsAs r l' r') (fs : Fragments) :
    foundAt l r (memberGroups fs) = foundAt l' r' (memberGroups fs) := by
  obtain ⟨entry, -, hentry⟩ := exists_entry l r
  have hentry' : ∀ m e, foundAt l' r' (propertyEntry m) = some e → entry m = e := by
    intro m e he
    exact hentry m e ((foundAt_propertyEntry_of_shows h m).trans he)
  ext g
  rw [foundAt_memberGroups_eq_some_iff hentry,
    foundAt_memberGroups_eq_some_iff hentry']
  simp only [foundAt_propertyEntry_of_shows h]

/-! ## Overviews with a parent -/

variable {name parent : String} {d : Document} {fs : Fragments} {main : Interface}

def overviewWith (l : Library) (r : Registry) (name : String) (fs : Fragments) (main : Interface)
    (parent : String) (parentFs : Except Failure Fragments) : Option (Except Failure Overview) :=
  (foundAt l r (memberGroups fs)).bind fun members =>
    andThen (some parentFs) fun parentFs =>
      (foundAt l r (memberGroups parentFs)).map fun parentMembers => .ok {
        name := name
        isSecure := main.isSecure
        hasConstructor := hasConstructor fs
        members := members
        events := sortNames (eventNames fs)
        parent := some (parent, parentMembers) }

theorem overviewWith_of_shows (h : l.ShowsAs r l' r') (parentFs : Except Failure Fragments) :
    overviewWith l r name fs main parent parentFs =
      overviewWith l' r' name fs main parent parentFs := by
  unfold overviewWith
  simp only [foundAt_memberGroups_of_shows h]

/-- **An overview by the definitions of the parent**: the failure to have these is its own. -/
theorem answerAt_overview_of_parent (hd : l.documentAt r name = .ok d)
    (hp : parse d.combined = .ok fs) (hm : Fragments.mainInterface? fs = some main)
    (hparent : main.parent = some parent) :
    answerAt l r (overview name) =
      overviewWith l r name fs main parent (outcomeAt l r (parentFragments d parent)) := by
  rw [answerAt_overview_of_main hd hp hm, answerAt_parentGroups, hparent]
  refine Option.bind_congr fun members _ => ?_
  dsimp only
  cases outcomeAt l r (parentFragments d parent) with
  | error e => rfl
  | ok parentFs => exact Option.map_map _ _ _

/-- The definitions of the parent are those of the text that the document holds. -/
theorem outcomeAt_parentFragments_inline {text : String} (h : d.parent = some ⟨parent, some text⟩) :
    outcomeAt l r (parentFragments d parent) = parseFor parent text := by
  unfold parentFragments Document.parentText?
  rw [h]
  rfl

/-- A document that does not hold the parent's text leaves it to the parent's own document. -/
theorem outcomeAt_parentFragments_fetched {p : Document} (h : d.parentText? = none)
    (hP : l.documentAt r parent = .ok p) :
    outcomeAt l r (parentFragments d parent) = parseFor parent p.text := by
  unfold parentFragments
  rw [h]
  show outcomeAt l r (Registry.document parent >>= _) = _
  rw [outcomeAt_then, outcomeAt_document, hP]
  rfl

/-- **An overview is the same with and without the text of the parent.**  Where an interface
inherits from a parent, its document may hold the own text of the parent or not: the overview is the
same, or fails in the same way, and what it lists of the parent is what this text alone defines. -/
theorem overview_of_parentText {d' p : Document} {text : String}
    (hsame : l.SameButParents r l' r')
    (hd : l.documentAt r name = .ok d) (hinline : d.parent = some ⟨parent, some text⟩)
    (hd' : l'.documentAt r' name = .ok d') (hwithout : d'.parentText? = none)
    (hp : parse d.combined = .ok fs) (hm : Fragments.mainInterface? fs = some main)
    (hparent : main.parent = some parent)
    (hP : l'.documentAt r' parent = .ok p) (htext : p.text = text) :
    answerAt l r (overview name) = answerAt l' r' (overview name) ∧
    answerAt l r (overview name) =
      (foundAt l r (memberGroups fs)).bind fun members =>
        andThen (some (parseFor parent text)) fun parentFs =>
          (foundAt l r (memberGroups parentFs)).map fun parentMembers => .ok {
            name
            isSecure := main.isSecure
            hasConstructor := hasConstructor fs
            members
            events := sortNames (eventNames fs)
            parent := some (parent, parentMembers) } := by
  have hinlined : answerAt l r (overview name) =
      overviewWith l r name fs main parent (parseFor parent text) := by
    rw [answerAt_overview_of_parent hd hp hm hparent, outcomeAt_parentFragments_inline hinline]
  have hp' : parse d'.combined = .ok fs := by
    obtain ⟨e, he, hwithout⟩ := hsame.exists_document hd
    cases hd'.symm.trans he
    rw [← d'.combined_withoutParent, hwithout, d.combined_withoutParent, hp]
  have hfetched : answerAt l' r' (overview name) =
      overviewWith l' r' name fs main parent (parseFor parent text) := by
    rw [answerAt_overview_of_parent hd' hp' hm hparent,
      outcomeAt_parentFragments_fetched hwithout hP, htext]
  refine ⟨?_, hinlined⟩
  rw [hinlined, hfetched, overviewWith_of_shows hsame.showsAs]

def parentDocument : Document where
  kind := .interface
  text := "interface P \x7b attribute Options a; \x7d;"
  extensions := ["partial interface P \x7b attribute long b; \x7d;"]

def childDocument (text : Option String) : Document where
  kind := .interface
  text := "interface A : P \x7b undefined f(); \x7d;"
  parent := some ⟨"P", text⟩

def keepingBoth (text : Option String) : Registry where
  documents := [("A", childDocument text), ("P", parentDocument)]

theorem sameButParents_keepingBoth (text text' : Option String) :
    Library.SameButParents ⟨.outside, {}⟩ (keepingBoth text)
      ⟨.outside, {}⟩ (keepingBoth text') := by
  intro name
  by_cases hA : name = "A"
  · subst hA
    rfl
  · have hlookup : ∀ text, (keepingBoth text).documents.lookup name =
        [("P", parentDocument)].lookup name := by
      intro text
      show List.lookup name (("A", childDocument text) :: [("P", parentDocument)]) = _
      rw [List.lookup_cons, beq_false_of_ne hA]
    unfold Library.documentAt
    rw [hlookup, hlookup]
    rfl

/-- Both overviews list the property of the parent that its own text declares. -/
theorem overview_of_parentText_extended :
    ∃ o, answerAt ⟨.outside, {}⟩ (keepingBoth (some parentDocument.text)) (overview "A") =
        some (.ok o) ∧
      answerAt ⟨.outside, {}⟩ (keepingBoth none) (overview "A") = some (.ok o) ∧
      ∃ parent, o.parent = some ("P", parent) ∧
        (parent.propertyList false).map (·.name) = ["a"] := by
  obtain ⟨hp, hP⟩ : parse (childDocument (some parentDocument.text)).combined = .ok
        [.interface { name := "A", parent := some "P",
                      members := [.ofOperation "f" (.named "undefined")] }] ∧
      parse parentDocument.text = .ok
        [.interface { name := "P", members := [.ofAttribute "a" (.named "Options")] }] := by
    decide +kernel
  have hinlined : Library.documentAt ⟨.outside, {}⟩ (keepingBoth (some parentDocument.text)) "A" =
      .ok (childDocument (some parentDocument.text)) := rfl
  have hfetched : Library.documentAt ⟨.outside, {}⟩ (keepingBoth none) "A" =
      .ok (childDocument none) := rfl
  have hparent : Library.documentAt ⟨.outside, {}⟩ (keepingBoth none) "P" =
      .ok parentDocument := rfl
  obtain ⟨heq, hok⟩ := overview_of_parentText (sameButParents_keepingBoth _ _) hinlined rfl
    hfetched rfl hp rfl rfl hparent rfl
  have hparsed : parseFor "P" parentDocument.text = .ok
      [.interface { name := "P", members := [.ofAttribute "a" (.named "Options")] }] := by
    unfold parseFor
    rw [hP]
    rfl
  have hends (fs : Fragments) := (Ends.memberGroups fs).exists_found_outside
    (keepingBoth (some parentDocument.text))
  obtain ⟨members, hmembers⟩ := hends [
    .interface { name := "A", parent := some "P",
                 members := [.ofOperation "f" (.named "undefined")] }]
  obtain ⟨parent, hfound⟩ := hends [
    .interface { name := "P", members := [.ofAttribute "a" (.named "Options")] }]
  rw [hparsed, hmembers, Option.bind_some] at hok
  dsimp only [andThen, Option.bind] at hok
  rw [hfound] at hok
  refine ⟨_, hok, heq.symm.trans hok, parent, rfl, ?_⟩
  obtain ⟨entry, rfl, hname, -⟩ := exists_listedBy hfound
  rw [propertyList_ofEntries]
  exact names_selectSorted hname (by decide +kernel) (by simp)

end IdlDocs
