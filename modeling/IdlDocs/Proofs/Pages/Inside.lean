import IdlDocs.Proofs.Files.Elsewhere
import IdlDocs.Proofs.Pages.Written

/-!
# Pages stay in the directory of their interface

The path of a page has one step, the name of its file, or two: a directory that is a word, and the
name of its file.  So wherever the directory of an interface is, its pages are written there or in
directories in it, and nowhere else.

* `IsWrittenName`: identifiers as they are written.
* `validExtension_of_ofText`: settings that are read have an extension without a slash.
* `writePages_only`: writing pages touches only the files at their places.
* `pages_stay_inside`: **all pages of an interface stay in its directory.**
-/

namespace IdlDocs

open Idl Files
open Text (IsWordText)

/-- An identifier as it is written: a name, with one low line in front of it or without. -/
def IsWrittenName (s : String) : Prop := ∃ name, IsIdentifier name ∧ (s = name ∨ s = "_" ++ name)

theorem IsWrittenName.isWordText {s : String} (h : IsWrittenName s) : IsWordText s ∧ s ≠ "" := by
  obtain ⟨name, hname, rfl | rfl⟩ := h
  · exact ⟨isWordText_of_isIdentifier hname, hname.ne_empty⟩
  · have hlow : IsWordText "_" := List.all_eq_true.1 (by decide)
    refine ⟨hlow.append (isWordText_of_isIdentifier hname), ?_⟩
    intro he
    exact hname.ne_empty (String.append_eq_empty_iff.1 he).2

/-! ## The name of the file -/

theorem validExtension_of_ofText {text : String} {c : Config} (h : Config.ofText text = .ok c) :
    Config.validExtension c.extension = true := by
  unfold Config.ofText at h
  cases hparse : Toml.parse? text with
  | none =>
    rw [hparse] at h
    cases h
  | some entries =>
    rw [hparse] at h
    cases hread : Config.ofEntries entries with
    | error e =>
      simp only [hread] at h
      cases h
    | ok c' =>
      simp only [hread] at h
      by_cases hvalid : Config.validExtension c'.extension = true
      · simp [hvalid, bind, Except.bind, pure, Except.pure] at h
        rwa [← h]
      · simp [hvalid, bind, Except.bind] at h

theorem isStep_indexName {extension : String} (h : Config.validExtension extension = true) :
    IsStep (indexName extension) ∧ indexName extension ≠ "." ∧ indexName extension ≠ ".." := by
  unfold Config.validExtension at h
  simp only [Bool.and_eq_true, Bool.not_eq_true', List.contains_eq_mem, decide_eq_false_iff_not]
    at h
  have hlength : 6 ≤ (indexName extension).length := by
    unfold indexName
    rw [String.length_append]
    exact Nat.le_add_right 6 _
  refine ⟨⟨?_, ?_⟩, ?_, ?_⟩
  · intro he
    rw [he] at hlength
    exact absurd hlength (by decide)
  · unfold indexName
    rw [String.toList_append, List.mem_append]
    rintro (hlead | hslash)
    · exact absurd hlead (by decide)
    · exact h.2 hslash
  · intro he
    rw [he] at hlength
    exact absurd hlength (by decide)
  · intro he
    rw [he] at hlength
    exact absurd hlength (by decide)

/-- A word may be a step of a path, and does not stand for another directory. -/
theorem isStep_of_isWordText {name : String} (h : IsWordText name) (hne : name ≠ "") :
    IsStep name ∧ name ≠ "." ∧ name ≠ ".." := by
  have hnot : ∀ c ∈ name.toList, c ≠ '.' ∧ c ≠ '/' := by
    intro c hc
    constructor
    · rintro rfl
      exact absurd (h _ hc) (by decide)
    · rintro rfl
      exact absurd (h _ hc) (by decide)
  refine ⟨⟨hne, fun hslash => (hnot '/' hslash).2 rfl⟩, ?_, ?_⟩
  · rintro rfl
    exact (hnot '.' (by decide)).1 rfl
  · rintro rfl
    exact (hnot '.' (by decide)).1 rfl

/-! ## Writing pages -/

/-- The place of a page is given by names, none of which leads out of a directory. -/
def GeneratedPage.HasPlace (page : GeneratedPage) : Prop :=
  page.place ≠ [] ∧ ∀ name ∈ page.place, IsStep name ∧ name ≠ "." ∧ name ≠ ".."

namespace GeneratedPage.HasPlace

variable {page : GeneratedPage}

theorem start_path (h : page.HasPlace) (files : Tree) (root : String) :
    files.start (page.path root) = files.start root :=
  Tree.start_eq (goesOn_of_ne_nil root (fun name hname => (h.2 name hname).1) h.1).fromRoot

theorem placeOf_path (h : page.HasPlace) (files : Tree) (root : String) :
    files.placeOf (page.path root) = files.placeOf root ++ page.place :=
  placeOf_joinPaths files root h.2 h.1

/-- A page that is written comes to its place, and no other file is touched. -/
theorem write?_only {files files' : Tree} {root : String} (h : page.HasPlace)
    (hwrite : files.write? (page.path root) page.content = some files')
    (hstart : (files.root.get? (files.start root)).any Node.isDirectory = true) :
    files'.current = files.current ∧
      files'.root.get? (files.placeOf root ++ page.place) = some (.file page.content) ∧
      files.root.SameBut {files.placeOf root ++ page.place} files'.root := by
  rw [← h.start_path files root] at hstart
  have hwritten := Tree.write?_only hwrite hstart
  rwa [h.placeOf_path files root] at hwritten

end GeneratedPage.HasPlace

/-- **Writing pages touches only the files at their places**, where paths start at a directory. -/
theorem writePages_only {files : Tree} {root : String} {pages : List GeneratedPage}
    (hplaces : ∀ page ∈ pages, page.HasPlace)
    (hstart : (files.root.get? (files.start root)).any Node.isDirectory = true) :
    files.root.SameBut {place | ∃ page ∈ pages, place = files.placeOf root ++ page.place}
      (writePages files root pages).2.root := by
  induction pages generalizing files with
  | nil => exact .refl _ _
  | cons page pages ih =>
    unfold writePages
    cases hwrite : files.write? (page.path root) page.content with
    | none => exact .refl _ _
    | some files₁ =>
      obtain ⟨hcurrent, -, hsame⟩ := (hplaces page List.mem_cons_self).write?_only hwrite hstart
      -- Paths start where they have started before, so the directory is at the same place.
      have hsamestart : files₁.start root = files.start root := by
        unfold Tree.start
        rw [hcurrent]
      have hsameplace : files₁.placeOf root = files.placeOf root := by
        unfold Tree.placeOf
        rw [hsamestart]
      have hrest := @ih files₁ (fun q hq => hplaces q (List.mem_cons_of_mem page hq)) (by
        rw [hsamestart]
        exact hsame.grows.directory _ hstart)
      rw [hsameplace] at hrest
      refine (hsame.mono ?_).trans (hrest.mono ?_)
      · rintro place rfl
        exact ⟨page, List.mem_cons_self, rfl⟩
      · rintro place ⟨q, hq, rfl⟩
        exact ⟨q, List.mem_cons_of_mem page hq, rfl⟩

/-! ## The pages of an interface -/

variable {l : Library} {r : Registry} {e : Templates.Engine} {renderer : Templates.Renderer e}

/-- The place of each page is the name of its file, alone or in a directory that is named by a
word. -/
theorem place_of_generateAll {text : String} {c : Config} (hc : Config.ofText text = .ok c)
    {p : Request} (hi : IsWrittenName p.interface) {pages : List GeneratedPage}
    (h : answerAt l r (generateAll renderer c.extension p) = some (.ok pages))
    {page : GeneratedPage} (hpage : page ∈ pages) :
    page.place = [indexName c.extension] ∨
      ∃ d, (IsWordText d ∧ d ≠ "") ∧ page.place = [d, indexName c.extension] := by
  have hindex := isStep_indexName (validExtension_of_ofText hc)
  obtain ⟨-, o, -, -, -, ho, -⟩ := exists_of_generateAll l r renderer c.extension h
  rcases place_of_mem h ho (fun _ => hi.isWordText) hindex.1.noSlash page hpage with
    hroot | ⟨-, -, d, -, hd, hplace⟩
  · exact .inl hroot
  · exact .inr ⟨d, hd, hplace⟩

theorem GeneratedPage.HasPlace.of_place {page : GeneratedPage} {index : String}
    (hindex : IsStep index ∧ index ≠ "." ∧ index ≠ "..")
    (hplace : page.place = [index] ∨
      ∃ d, (IsWordText d ∧ d ≠ "") ∧ page.place = [d, index]) : page.HasPlace := by
  unfold GeneratedPage.HasPlace
  rcases hplace with hroot | ⟨d, ⟨hword, hne⟩, hd⟩
  · rw [hroot]
    exact ⟨List.cons_ne_nil _ _, List.forall_mem_singleton.2 hindex⟩
  · rw [hd]
    refine ⟨List.cons_ne_nil _ _, List.forall_mem_cons.2 ⟨isStep_of_isWordText hword hne, ?_⟩⟩
    exact List.forall_mem_singleton.2 hindex

/-- Pages at places that do not lead to one another can be written into an empty directory. -/
theorem exists_writePages {pages : List GeneratedPage} (hplaces : ∀ page ∈ pages, page.HasPlace)
    (hapart : ∀ page ∈ pages, ∀ other ∈ pages, page.place <+: other.place →
      page.place = other.place)
    (hnames : ∀ page ∈ pages, ∀ step ∈ page.place, isName step = true) {files : Tree}
    {root : String} (hroot : files.find? root = some (.directory [])) :
    ∃ files', writePages files root pages = (.ok (pages.map (·.path root)), files') := by
  have hfree : PrefixFree {place | ∃ page ∈ pages, place = page.place} := by
    rintro _ ⟨page, hpage, rfl⟩ _ ⟨other, hother, rfl⟩ hle
    exact hapart page hpage other hother hle
  have hentries : ∀ place ∈ {place | ∃ page ∈ pages, place = page.place},
      place ≠ [] ∧ ∀ name ∈ place, IsEntryName name := by
    rintro _ ⟨page, hpage, rfl⟩
    refine ⟨(hplaces page hpage).1, fun name hname => ⟨hnames page hpage name hname, ?_, ?_⟩⟩
    · exact ((hplaces page hpage).2 name hname).1.ne_empty
    · exact ((hplaces page hpage).2 name hname).1.noSlash
  obtain ⟨files', hwrite, -⟩ := writePages_below hfree hentries hroot
    (Node.open_empty fun hnil => (hentries _ hnil).1 rfl) fun page hpage => ⟨page, hpage, rfl⟩
  exact ⟨files', hwrite⟩

/-- **All pages of an interface stay in its directory.**  With settings that have been read, and for
an interface that is named by an identifier:

* the path of a page is the name of its file, or a directory and this name;
* no step of it is empty or leads to another directory;
* no page stands where the directory of another one is;
* wherever the directory of the interface is, a page is written at its path in there, and no
  other file is touched, whether all pages can be written or not;
* all of them can be written into an empty directory, if files may have the names that the steps of
  their paths are. -/
theorem pages_stay_inside {text : String} {c : Config} (hc : Config.ofText text = .ok c)
    {p : Request} (hi : IsWrittenName p.interface) {pages : List GeneratedPage}
    (h : answerAt l r (generateAll renderer c.extension p) = some (.ok pages)) :
    (∀ page ∈ pages,
      slashParts page.relativePath = [indexName c.extension] ∧
        (∀ root, page.path root = joinPath root (indexName c.extension)) ∨
      ∃ d, slashParts page.relativePath = [d, indexName c.extension] ∧
        ∀ root, page.path root = joinPath (joinPath root d) (indexName c.extension)) ∧
    (∀ page ∈ pages, ∀ step ∈ slashParts page.relativePath,
      step ≠ "" ∧ step ≠ "." ∧ step ≠ ".." ∧ '/' ∉ step.toList) ∧
    (∀ page ∈ pages, ∀ other ∈ pages,
      slashParts page.relativePath <+: slashParts other.relativePath →
        page.relativePath = other.relativePath) ∧
    (∀ (files : Tree) (root : String),
      (files.root.get? (files.start root)).any Node.isDirectory = true →
        (∀ page ∈ pages, ∀ files', files.write? (page.path root) page.content = some files' →
          files'.root.get? (files.placeOf root ++ slashParts page.relativePath) =
            some (.file page.content)) ∧
        files.root.SameBut
          {place | ∃ page ∈ pages, place = files.placeOf root ++ slashParts page.relativePath}
          (writePages files root pages).2.root) ∧
    ((∀ page ∈ pages, ∀ step ∈ slashParts page.relativePath, isName step = true) →
      ∀ (files : Tree) (root : String), files.find? root = some (.directory []) →
        ∃ files', writePages files root pages = (.ok (pages.map (·.path root)), files')) := by
  have hindex := isStep_indexName (validExtension_of_ofText hc)
  have hplace : ∀ page ∈ pages, page.place = [indexName c.extension] ∨
      ∃ d, (IsWordText d ∧ d ≠ "") ∧ page.place = [d, indexName c.extension] :=
    fun _ hpage => place_of_generateAll hc hi h hpage
  have hsteps : ∀ page ∈ pages, page.HasPlace := fun page hpage =>
    .of_place hindex (hplace page hpage)
  have hapart : ∀ page ∈ pages, ∀ other ∈ pages, page.place <+: other.place →
      page.place = other.place := fun page hpage other hother hle =>
    eq_of_prefix_of_word ((hplace page hpage).imp_right fun ⟨d, hd, he⟩ => ⟨d, hd.1, he⟩)
      ((hplace other hother).imp_right fun ⟨d, hd, he⟩ => ⟨d, hd.1, he⟩) hle
  refine ⟨?paths, ?steps, ?apart, ?written, ?possible⟩
  case paths =>
    intro page hpage
    rcases hplace page hpage with hroot | ⟨d, -, hd⟩
    · refine .inl ⟨hroot, fun root => ?_⟩
      show joinPaths root page.place = _
      rw [hroot]
      rfl
    · refine .inr ⟨d, hd, fun root => ?_⟩
      show joinPaths root page.place = _
      rw [hd]
      rfl
  case steps =>
    intro page hpage step hstep
    obtain ⟨hs, hdot, hdots⟩ := (hsteps page hpage).2 step hstep
    exact ⟨hs.ne_empty, hdot, hdots, hs.noSlash⟩
  case apart =>
    intro page hpage other hother hle
    exact slashParts_injective (hapart page hpage other hother hle)
  case written =>
    intro files root hstart
    refine ⟨?_, writePages_only hsteps hstart⟩
    intro page hpage files' hwrite
    exact ((hsteps page hpage).write?_only hwrite hstart).2.1
  case possible =>
    intro hnames files root hroot
    exact exists_writePages hsteps hapart hnames hroot

/-- A library with an interface that has a constructor and a method, under a name that is written
with a low line. -/
def lowLineLibrary : Library where
  source := .memory [
    ("groups.json", "[\x7b\x7d]"), ("names.json", "\x7b\x7d"), ("events.json", "[]"),
    ("_A.json", "\x7b\"defined\": \x7b\"fragment\": " ++
      "\"interface A \x7b constructor(); any F(); \x7d;\"\x7d\x7d")]
  config := { groups := "groups.json", names := "names.json", events := "events.json", base := "" }

/-- The pages of an interface whose name is written with a low line, and has a constructor and a
method, stay in its directory and can be written there, with an extension that has been set. -/
theorem pages_stay_inside_of_lowLine :
    ∃ (c : Config) (pages : List GeneratedPage) (files : Tree),
      Config.ofText "file_extension = \"html\"" = .ok c ∧ c.extension = "html" ∧
      IsWrittenName "_A" ∧
      answerAt lowLineLibrary {} (generateAll .standard c.extension { interface := "_A" }) =
        some (.ok pages) ∧
      (∀ page ∈ pages, ∀ step ∈ slashParts page.relativePath,
        step ≠ "" ∧ step ≠ "." ∧ step ≠ ".." ∧ '/' ∉ step.toList) ∧
      writePages emptyDirectory "out" pages = (.ok (pages.map (·.path "out")), files) ∧
      emptyDirectory.root.SameBut
        {place | ∃ page ∈ pages, place = ["out"] ++ slashParts page.relativePath} files.root := by
  have hext : (Config.ofText "file_extension = \"html\"").toOption.map (·.extension) =
      some "html" := by decide +kernel
  obtain ⟨c, hsome, hhtml⟩ := Option.map_eq_some_iff.1 hext
  have hc := eq_ok_of_toOption hsome
  have hread : lowLineLibrary.isRoot "_A" (fun fs =>
      listedSelectors fs == [.constructor, .member "F" false]) = true := by decide +kernel
  have hfin : lowLineLibrary.source.texts.Finite := finite_texts_memory _
  obtain ⟨o, fs, main, ho, hof, htest⟩ := exists_overview_of_isRoot hfin hread
  obtain ⟨pages, hpages⟩ := exists_generateAll (l := lowLineLibrary) (p := { interface := "_A" })
    c.extension (fun hne => absurd rfl hne) (finite_namedDictionaries hfin {}) (by decide) ho
  have hname : IsWrittenName "_A" := ⟨"A", ⟨'A', [], rfl, by decide, nofun⟩, .inr rfl⟩
  obtain ⟨-, hsteps, -, hwritten, hpossible⟩ := pages_stay_inside hc hname hpages
  -- The directories are those of the constructor and of the method.
  have hdirectory : ∀ s ∈ subSelectors o, ∀ d, s.directory? "_A" = some d → isName d = true := by
    intro s hs d hd
    have hlisted := (perm_subSelectors hof).subset hs
    rw [eq_of_beq htest, List.mem_cons, List.mem_singleton] at hlisted
    rcases hlisted with rfl | rfl <;> (cases hd; decide +kernel)
  have hnames : ∀ page ∈ pages, ∀ step ∈ slashParts page.relativePath, isName step = true := by
    intro page hpage step hstep
    change step ∈ page.place at hstep
    rw [hhtml] at hpages
    have hindex : isName (indexName "html") = true := by decide +kernel
    rcases place_of_mem hpages ho (fun _ => hname.isWordText) (by decide +kernel) page hpage with
      hroot | ⟨s, hs, d, hd, -, hplace⟩
    · rw [hroot, List.mem_singleton] at hstep
      rwa [hstep]
    · rw [hplace, List.mem_cons, List.mem_singleton] at hstep
      rcases hstep with rfl | rfl
      · exact hdirectory s hs _ hd
      · exact hindex
  obtain ⟨files, hwrite⟩ := hpossible hnames emptyDirectory "out" rfl
  have hplace : emptyDirectory.placeOf "out" = ["out"] := by decide
  have hsame := (hwritten emptyDirectory "out" rfl).2
  rw [hplace, hwrite] at hsame
  exact ⟨c, pages, files, hc, hhtml, hname, hpages, hsteps, hwrite, hsame⟩

end IdlDocs
