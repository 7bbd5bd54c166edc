import IdlDocs.Proofs.Registry.Copies

/-!
# Falling back to shorter ends

A location stands for one path below the root of a directory for each end of its path.  The
directory answers with the longest end that leads anywhere: with the text that it leads to, and with
a failure if it leads to a directory or to a file that holds no text, whatever shorter ends lead to.

* `IsLongest`: the longest end of a location whose path has a property.
* `directory_answer_eq`: **the answer is that of the longest end that leads anywhere.**
* `directory_fetches_longest_file`: it is the longest text where no longer end leads to anything
  else, and only there.
-/

namespace IdlDocs

open Files Source

/-! ## The longest end -/

/-- The longest end of the path of a location whose path below a root has a property. -/
structure IsLongest (p : String → Bool) (root location : String) (place : List String) : Prop where
  isEnd : place ∈ ends (segments (pathOf location))
  holds : p (joinPaths root place) = true
  longest : ∀ other ∈ ends (segments (pathOf location)), p (joinPaths root other) = true →
    other.length ≤ place.length

theorem find?_ends_eq_some_iff {α : Type} {p : List α → Bool} {as bs : List α} :
    (ends as).find? p = some bs ↔
      bs ∈ ends as ∧ p bs = true ∧ ∀ cs ∈ ends as, p cs = true → cs.length ≤ bs.length := by
  induction as with
  | nil => simp [ends]
  | cons a as ih =>
    rw [ends]
    by_cases hp : p (a :: as) = true
    · rw [List.find?_cons_of_pos hp, Option.some.injEq]
      constructor
      · rintro rfl
        refine ⟨List.mem_cons_self, hp, ?_⟩
        intro cs hcs _
        have hsuffix : cs <:+ a :: as := (mem_ends.1 hcs).2
        exact hsuffix.length_le
      · rintro ⟨hmem, -, hlongest⟩
        have hle := hlongest _ List.mem_cons_self hp
        have hsuffix : bs <:+ a :: as := (mem_ends.1 hmem).2
        exact (hsuffix.eq_of_length_le hle).symm
    · rw [List.find?_cons_of_neg hp, ih]
      constructor
      · rintro ⟨hmem, hbs, hlongest⟩
        refine ⟨List.mem_cons_of_mem _ hmem, hbs, ?_⟩
        intro cs hcs hpc
        rcases List.mem_cons.1 hcs with rfl | hcs
        · exact absurd hpc hp
        · exact hlongest cs hcs hpc
      · rintro ⟨hmem, hbs, hlongest⟩
        refine ⟨?_, hbs, fun cs hcs => hlongest cs (List.mem_cons_of_mem _ hcs)⟩
        rcases List.mem_cons.1 hmem with rfl | hmem
        · exact absurd hbs hp
        · exact hmem

theorem isLongest_iff_find? {p : String → Bool} {root location : String} {place : List String} :
    IsLongest p root location place ↔
      (ends (segments (pathOf location))).find? (p ∘ joinPaths root) = some place := by
  rw [find?_ends_eq_some_iff]
  exact ⟨fun h => ⟨h.isEnd, h.holds, h.longest⟩, fun h => ⟨h.1, h.2.1, h.2.2⟩⟩

theorem exists_isLongest {p : String → Bool} {root location : String} {place : List String}
    (hmem : place ∈ ends (segments (pathOf location))) (hp : p (joinPaths root place) = true) :
    ∃ longest, IsLongest p root location longest := by
  simp only [isLongest_iff_find?]
  refine Option.isSome_iff_exists.1 (List.find?_isSome.2 ⟨place, hmem, hp⟩)

/-! ## The answer -/

variable {files : Tree} {root location path : String}

/-- The text at a path that leads somewhere, or why it cannot be read. -/
def readThere (files : Tree) (path : String) : Except FetchError String :=
  match files.read path with
  | .ok text => .ok text
  | .error .notText => .error ⟨path, .notText⟩
  | .error _ => .error ⟨path, .isDirectory⟩

/-- Of several paths the first one is read that leads anywhere. -/
theorem readFirst_eq_find? (paths : List String) :
    readFirst files root location paths =
      (paths.find? files.holds).elim (.error ⟨location, .notUnder root⟩) (readThere files) := by
  induction paths with
  | nil => rfl
  | cons path paths ih =>
    rw [readFirst]
    by_cases hthere : files.holds path = true
    · rw [List.find?_cons_of_pos hthere]
      show _ = readThere files path
      unfold readThere
      cases hread : files.read path with
      | ok text => rfl
      | error e =>
        cases e with
        | isDirectory => rfl
        | notText => rfl
        | missing =>
          rw [Tree.read_eq_missing_iff, hthere] at hread
          cases hread
    · rw [List.find?_cons_of_neg hthere, Tree.read_eq_missing_iff.2 (Bool.eq_false_iff.2 hthere)]
      exact ih

/-- **A directory answers with the longest end that leads anywhere.** -/
theorem directory_answer_eq (files : Tree) (root location : String) :
    (directory files root).answer location =
      ((ends (segments (pathOf location))).find? (files.holds ∘ joinPaths root)).elim
        (.error ⟨location, .notUnder root⟩)
        fun place => readThere files (joinPaths root place) := by
  rw [directory_answer, readFirst_eq_find?, candidates, List.find?_map]
  cases (ends (segments (pathOf location))).find? (files.holds ∘ joinPaths root) <;> rfl

section Fetched

variable (c : Config) (r : Registry) (name : String) {place : List String}

theorem IsLongest.fetched (h : IsLongest files.holds root location place) :
    outcomeAt ⟨.directory files root, c⟩ r (Registry.fetch name location) =
      (readThere files (joinPaths root place)).mapError fun e =>
        .fetch name e.location e.cause := by
  rw [outcomeAt_fetch]
  unfold Library.fetched
  dsimp only
  rw [directory_answer_eq, isLongest_iff_find?.1 h]
  rfl

theorem fetched_of_forall_not_holds
    (h : ∀ place ∈ ends (segments (pathOf location)), files.holds (joinPaths root place) = false) :
    outcomeAt ⟨.directory files root, c⟩ r (Registry.fetch name location) =
      .error (.fetch name location (.notUnder root)) := by
  have hnone : (ends (segments (pathOf location))).find? (files.holds ∘ joinPaths root) = none :=
    List.find?_eq_none.2 fun place hplace => by
      show ¬files.holds (joinPaths root place) = true
      rw [h place hplace]
      exact Bool.false_ne_true
  rw [outcomeAt_fetch]
  unfold Library.fetched
  dsimp only
  rw [directory_answer_eq, hnone]
  rfl

theorem IsLongest.fetched_directory (h : IsLongest files.holds root location place)
    (hdir : files.isDirectory (joinPaths root place) = true) :
    outcomeAt ⟨.directory files root, c⟩ r (Registry.fetch name location) =
      .error (.fetch name (joinPaths root place) .isDirectory) := by
  rw [h.fetched c r name, readThere, Tree.read_eq_isDirectory_iff.2 hdir]
  rfl

/-- A file that holds no text cannot be read either. -/
theorem IsLongest.fetched_notText (h : IsLongest files.holds root location place)
    (hread : files.read (joinPaths root place) = .error .notText) :
    outcomeAt ⟨.directory files root, c⟩ r (Registry.fetch name location) =
      .error (.fetch name (joinPaths root place) .notText) := by
  rw [h.fetched c r name, readThere, hread]
  rfl

/-- What is there and holds no text is named in the failure. -/
theorem IsLongest.exists_fetched_error (h : IsLongest files.holds root location place)
    (hnot : files.isText (joinPaths root place) = false) :
    ∃ cause, outcomeAt ⟨.directory files root, c⟩ r (Registry.fetch name location) =
      .error (.fetch name (joinPaths root place) cause) := by
  rcases Tree.unreadable_of_not_isText h.holds hnot with hdir | hread
  · exact ⟨_, h.fetched_directory c r name hdir⟩
  · exact ⟨_, h.fetched_notText c r name hread⟩

section Texts

variable (htext : IsLongest files.isText root location place)

include htext

/-- The longest text is fetched where nothing longer leads anywhere. -/
theorem IsLongest.fetched_eq_ok_iff {text : String}
    (hread : files.read (joinPaths root place) = .ok text) :
    outcomeAt ⟨.directory files root, c⟩ r (Registry.fetch name location) = .ok text ↔
      IsLongest files.holds root location place := by
  constructor
  · intro hok
    obtain ⟨first, hfirst⟩ := exists_isLongest htext.isEnd (Tree.holds_of_isText htext.holds)
    have histext : files.isText (joinPaths root first) = true := by
      rw [← Bool.not_eq_false]
      intro hnot
      obtain ⟨cause, herror⟩ := hfirst.exists_fetched_error c r name hnot
      rw [herror] at hok
      cases hok
    refine ⟨htext.isEnd, Tree.holds_of_isText htext.holds, fun other hother hthere => ?_⟩
    calc other.length
      _ ≤ first.length := hfirst.longest other hother hthere
      _ ≤ place.length := htext.longest first hfirst.isEnd histext
  · intro h
    rw [h.fetched c r name, readThere, hread]
    rfl

omit c r name in
/-- Nothing longer than the longest text leads anywhere where no longer end leads to a directory or
to a file that holds no text. -/
theorem IsLongest.holds_iff :
    IsLongest files.holds root location place ↔
      ∀ longer ∈ ends (segments (pathOf location)), place.length < longer.length →
        files.isDirectory (joinPaths root longer) = false ∧
          files.read (joinPaths root longer) ≠ .error .notText := by
  constructor
  · intro h longer hlonger hlt
    rw [← Bool.not_eq_true]
    constructor
    · intro hdir
      have hle := h.longest longer hlonger (Tree.holds_of_isDirectory hdir)
      omega
    · intro hread
      have hle := h.longest longer hlonger (Tree.holds_of_read_notText hread)
      omega
  · intro hreadable
    refine ⟨htext.isEnd, Tree.holds_of_isText htext.holds, fun other hother hthere => ?_⟩
    by_contra hlt
    obtain ⟨hnodir, hnobinary⟩ := hreadable other hother (by omega)
    rw [← Bool.not_eq_true] at hnodir
    have histext : files.isText (joinPaths root other) = true := by
      rw [← Bool.not_eq_false]
      intro hnot
      exact (Tree.unreadable_of_not_isText hthere hnot).elim hnodir hnobinary
    exact hlt (htext.longest other hother histext)

end Texts

/-- **The longest text is fetched where no longer end leads to anything else**, and only there:
where one does, the longest end that leads anywhere is named as what cannot be read, be it a
directory or a file that holds no text.  Nothing is fetched where no end leads to a text. -/
theorem directory_fetches_longest_file (files : Tree) (root location : String) :
    (∀ place text, IsLongest files.isText root location place →
      files.read (joinPaths root place) = .ok text →
        (outcomeAt ⟨.directory files root, c⟩ r (Registry.fetch name location) = .ok text ↔
          ∀ longer ∈ ends (segments (pathOf location)), place.length < longer.length →
            files.isDirectory (joinPaths root longer) = false ∧
              files.read (joinPaths root longer) ≠ .error .notText)) ∧
    (∀ place, IsLongest files.holds root location place →
      files.isDirectory (joinPaths root place) = true →
        outcomeAt ⟨.directory files root, c⟩ r (Registry.fetch name location) =
          .error (.fetch name (joinPaths root place) .isDirectory)) ∧
    (∀ place, IsLongest files.holds root location place →
      files.read (joinPaths root place) = .error .notText →
        outcomeAt ⟨.directory files root, c⟩ r (Registry.fetch name location) =
          .error (.fetch name (joinPaths root place) .notText)) ∧
    ((∀ place ∈ ends (segments (pathOf location)), files.isText (joinPaths root place) = false) →
      ∃ at' cause, outcomeAt ⟨.directory files root, c⟩ r (Registry.fetch name location) =
        .error (.fetch name at' cause)) := by
  refine ⟨?text, ?directory, ?binary, ?missing⟩
  case text =>
    intro place text htext hread
    exact (htext.fetched_eq_ok_iff c r name hread).trans htext.holds_iff
  case directory =>
    intro place hplace hdir
    exact hplace.fetched_directory c r name hdir
  case binary =>
    intro place hplace hread
    exact hplace.fetched_notText c r name hread
  case missing =>
    intro hnotext
    cases hf : (ends (segments (pathOf location))).find? (files.holds ∘ joinPaths root) with
    | some place =>
      have hplace := isLongest_iff_find?.2 hf
      obtain ⟨cause, herror⟩ :=
        hplace.exists_fetched_error c r name (hnotext place hplace.isEnd)
      exact ⟨_, cause, herror⟩
    | none =>
      refine ⟨location, .notUnder root, fetched_of_forall_not_holds c r name ?_⟩
      intro place hplace
      exact Bool.eq_false_iff.2 (List.find?_eq_none.1 hf place hplace)

end Fetched

/-- A directory with a text under the short end of some locations: a directory is under the long end
of one of them, and a file that holds no text under that of another one. -/
def blockedFiles : Tree :=
  { root := .directory [("copy", .directory
      [("A.json", .file "text"), ("ed", .directory [("A.json", .directory [])]),
        ("raw", .directory [("A.json", .binary)])])] }

/-- The text of the short end is fetched where nothing is under the long one. -/
theorem directory_fetches_longest_file_short :
    IsLongest blockedFiles.isText "copy" "https://host/idl/A.json" ["A.json"] ∧
    blockedFiles.read (joinPaths "copy" ["A.json"]) = .ok "text" ∧
    outcomeAt ⟨.directory blockedFiles "copy", {}⟩ {}
      (Registry.fetch "A" "https://host/idl/A.json") = .ok "text" := by
  have hlongest : IsLongest blockedFiles.isText "copy" "https://host/idl/A.json" ["A.json"] := by
    rw [isLongest_iff_find?]
    decide +kernel
  have htext : blockedFiles.read (joinPaths "copy" ["A.json"]) = .ok "text" := by decide +kernel
  refine ⟨hlongest, htext, ?_⟩
  have hmain :=
    directory_fetches_longest_file {} {} "A" blockedFiles "copy" "https://host/idl/A.json"
  exact (hmain.1 ["A.json"] "text" hlongest htext).2 (by decide +kernel)

/-- **What is under a long end hides the text of a shorter one**, if it is a directory or holds no
text. -/
theorem text_hidden_behind_longer_end :
    blockedFiles.read (joinPaths "copy" ["A.json"]) = .ok "text" ∧
    (IsLongest blockedFiles.isText "copy" "https://host/ed/A.json" ["A.json"] ∧
      outcomeAt ⟨.directory blockedFiles "copy", {}⟩ {}
        (Registry.fetch "A" "https://host/ed/A.json") =
          .error (.fetch "A" "copy/ed/A.json" .isDirectory)) ∧
    (IsLongest blockedFiles.isText "copy" "https://host/raw/A.json" ["A.json"] ∧
      outcomeAt ⟨.directory blockedFiles "copy", {}⟩ {}
        (Registry.fetch "A" "https://host/raw/A.json") =
          .error (.fetch "A" "copy/raw/A.json" .notText)) := by
  refine ⟨by decide +kernel, ⟨?_, ?_⟩, ?_, ?_⟩
  · rw [isLongest_iff_find?]
    decide +kernel
  · rw [outcomeAt_fetch]
    decide +kernel
  · rw [isLongest_iff_find?]
    decide +kernel
  · rw [outcomeAt_fetch]
    decide +kernel

end IdlDocs
