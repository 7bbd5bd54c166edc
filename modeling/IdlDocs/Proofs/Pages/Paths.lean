import IdlDocs.Proofs.Files.Writing
import IdlDocs.Proofs.Pages.Failing
import IdlDocs.Proofs.Text.Lowercase

/-!
# Paths of pages

The page of an overview is a file of the directory of its interface.  Every other page is the
file of this name in a directory of its own, which has the name in small letters of what the page
is about.

* `Selector.directory?`, `indexName`: the directory of a page, and the name of its file.
* `relativePath_eq`, `pathIn_injective`: the path of a page in its directory; **pages have one
  path where they have one directory.**
* `slashParts_pathIn`: the steps of this path.
* `isWordText_directory`: **the directories of what an overview lists are words.**
-/

namespace IdlDocs

open Idl Files
open Text (IsWordText)

/-- The name of the file of a page. -/
def indexName (extension : String) : String := "index." ++ extension

/-- The directory of a page, below that of its interface.  The overview has no other one. -/
def Selector.directory? (interface : String) : Selector → Option String
  | overview => none
  | constructor => some (Text.lowercase interface)
  | member name _ => some (Text.lowercase name)
  | event name => some (Text.lowercase name ++ "_event")

def pathIn (extension : String) : Option String → String
  | none => indexName extension
  | some directory => directory ++ "/" ++ indexName extension

def stepsIn (extension : String) : Option String → List String
  | none => [indexName extension]
  | some directory => [directory, indexName extension]

/-! ## Paths and directories -/

theorem append_index (directory extension : String) :
    directory ++ "/index." ++ extension = directory ++ "/" ++ indexName extension := by
  refine String.toList_inj.1 ?_
  simp [indexName]

theorem relativePath_eq (interface extension : String) (s : Selector) :
    s.relativePath interface extension = pathIn extension (s.directory? interface) := by
  cases s with
  | overview => rfl
  | constructor => exact append_index (Text.lowercase interface) extension
  | member name isStatic => exact append_index (Text.lowercase name) extension
  | event name =>
    refine Eq.trans ?_ (append_index (Text.lowercase name ++ "_event") extension)
    refine String.toList_inj.1 ?_
    change (Text.lowercase name ++ "_event/index." ++ extension).toList = _
    simp

/-- **Two pages have one path where they have one directory**, and only there. -/
theorem pathIn_injective (extension : String) : Function.Injective (pathIn extension) := by
  intro a b h
  have hlist := congrArg String.toList h
  cases a with
  | none =>
    cases b with
    | none => rfl
    | some e =>
      -- The one path is shorter than the other one.
      have hlength := congrArg List.length hlist
      simp [pathIn] at hlength
      omega
  | some d =>
    cases b with
    | none =>
      have hlength := congrArg List.length hlist
      simp [pathIn] at hlength
      omega
    | some e =>
      simp only [pathIn, String.toList_append, List.append_cancel_right_eq] at hlist
      exact congrArg some (String.toList_inj.1 hlist)

theorem slashParts_pathIn {extension : String} (hext : '/' ∉ (indexName extension).toList)
    {directory : Option String} (hd : ∀ d, directory = some d → '/' ∉ d.toList) :
    slashParts (pathIn extension directory) = stepsIn extension directory := by
  unfold slashParts
  cases directory with
  | none =>
    change (Text.parts '/' (indexName extension).toList).map String.ofList = _
    rw [Text.parts_of_notMem hext, List.map_singleton, String.ofList_toList]
    rfl
  | some d =>
    change (Text.parts '/' (d ++ "/" ++ indexName extension).toList).map String.ofList = _
    rw [String.toList_append, String.toList_append, List.append_assoc]
    change (Text.parts '/' (d.toList ++ '/' :: (indexName extension).toList)).map _ = _
    rw [Text.parts_append, Text.parts_of_notMem (hd d rfl), Text.parts_of_notMem hext]
    change [String.ofList d.toList, String.ofList (indexName extension).toList] = _
    rw [String.ofList_toList, String.ofList_toList]
    rfl

/-! ## Names of directories -/

theorem isWordText_of_isIdentifier {name : String} (h : IsIdentifier name) :
    IsWordText name := by
  obtain ⟨c, cs, rfl, hc, hcs⟩ := h
  intro d hd
  rw [String.toList_ofList] at hd
  rcases List.mem_cons.1 hd with rfl | hd
  · unfold isWordChar
    rw [hc]
    rfl
  · exact hcs d hd

theorem isEntryName_of_isWordText {name : String} (h : IsWordText name) (hne : name ≠ "")
    (hlong : name.utf8ByteSize ≤ 255) : IsEntryName name := by
  have hnot : ∀ c ∈ name.toList, c ≠ '.' ∧ c ≠ '/' ∧ c ≠ '\x00' := by
    refine fun c hc => ⟨?_, ?_, ?_⟩ <;> rintro rfl <;> exact absurd (h _ hc) (by decide)
  refine ⟨?_, hne, fun hc => (hnot _ hc).2.1 rfl⟩
  unfold isName
  rw [Bool.and_eq_true, Bool.and_eq_true, Bool.and_eq_true, bne_iff_ne, bne_iff_ne,
    decide_eq_true_eq, Bool.not_eq_true', List.contains_eq_mem, decide_eq_false_iff_not]
  refine ⟨⟨⟨?_, ?_⟩, hlong⟩, fun hc => (hnot _ hc).2.2 rfl⟩ <;> rintro rfl
  · exact (hnot '.' (by decide)).1 rfl
  · exact (hnot '.' (by decide)).1 rfl

theorem exists_directory_of_mem (interface : String) {o : Overview} {s : Selector}
    (hs : s ∈ subSelectors o) : ∃ directory, s.directory? interface = some directory := by
  cases s with
  | overview => exact absurd hs overview_not_mem_subSelectors
  | constructor | member | event => exact ⟨_, rfl⟩

/-- **The directories of what an overview lists are words**, that of the constructor where the
name of the interface is one. -/
theorem isWordText_directory {l : Library} {r : Registry} {interface : String} {o : Overview}
    {fs : Fragments} {main : Interface} (ho : IsOverview l r interface o fs main)
    (hi : o.hasConstructor = true → IsWordText interface ∧ interface ≠ "") {s : Selector}
    (hs : s ∈ subSelectors o) {directory : String}
    (hd : s.directory? interface = some directory) :
    IsWordText directory ∧ directory ≠ "" := by
  have hname : ∀ {name}, IsWordText name → name ≠ "" →
      IsWordText (Text.lowercase name) ∧ Text.lowercase name ≠ "" := fun h hne =>
    ⟨h.lowercase, h.lowercase_ne_empty hne⟩
  cases s with
  | overview => cases hd
  | constructor =>
    cases hd
    obtain ⟨hword, hne⟩ := hi (constructor_mem_subSelectors.1 hs)
    exact hname hword hne
  | member name isStatic =>
    cases hd
    obtain ⟨-, -, -, -, hid⟩ := exists_first_of_listed ho hs
    exact hname (isWordText_of_isIdentifier hid) hid.ne_empty
  | event event =>
    cases hd
    have hhandler := isWordText_of_isIdentifier (isIdentifier_of_listed_event ho hs)
    have hevent : IsWordText event := fun c hc => hhandler c <| by
      rw [String.toList_append]
      exact List.mem_append_right _ hc
    have hend : IsWordText "_event" := List.all_eq_true.1 (by decide)
    refine ⟨hevent.lowercase.append hend, fun he => ?_⟩
    exact absurd (String.append_eq_empty_iff.1 he).2 (by decide)

/-- A directory that is a word is not named as the file of the overview is. -/
theorem ne_indexName_of_isWordText {name : String} (h : IsWordText name) (extension : String) :
    name ≠ indexName extension := by
  rintro rfl
  refine absurd (h '.' ?_) (by decide)
  unfold indexName
  rw [String.toList_append]
  exact List.mem_append_left _ (by decide)

end IdlDocs
