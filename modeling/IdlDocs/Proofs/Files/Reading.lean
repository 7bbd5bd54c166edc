import IdlDocs.Files.Tree

/-!
# What a path leads to

A path leads nowhere, to a directory, to a file that holds a text, or to a file that holds none.
What is read by the path tells these apart.

* `Tree.read_eq_ok_iff`, `Tree.read_eq_isDirectory_iff`, `Tree.read_eq_missing_iff`: **what is
  read**, by what the path leads to.
* `Tree.isFile_eq_not_isDirectory`: what is there is a file or a directory, and not both.
* `Tree.isText`, `Tree.isText_iff`: the paths by which a text is read.
-/

namespace IdlDocs.Files

def Node.text? : Node → Option String
  | file text => some text
  | binary | directory _ => none

namespace Tree

variable {t : Tree} {path : String}

/-- Tells whether a path leads to a file that holds a text. -/
def isText (t : Tree) (path : String) : Bool := (t.find? path).any (·.text?.isSome)

theorem read_eq_ok_iff {text : String} :
    t.read path = .ok text ↔ t.find? path = some (.file text) := by
  unfold read
  rcases t.find? path with _ | (text' | _ | entries) <;> simp

theorem read_eq_isDirectory_iff :
    t.read path = .error .isDirectory ↔ t.isDirectory path = true := by
  unfold read isDirectory
  rcases t.find? path with _ | (text | _ | entries) <;> simp [Node.isDirectory]

theorem read_eq_missing_iff : t.read path = .error .missing ↔ t.holds path = false := by
  unfold read holds
  rcases t.find? path with _ | (text | _ | entries) <;> simp

/-- **A text is read where there is one.** -/
theorem isText_iff : t.isText path = true ↔ ∃ text, t.read path = .ok text := by
  unfold read isText
  rcases t.find? path with _ | (text | _ | entries) <;> simp [Node.text?]

/-- A file holds a text, or something else. -/
theorem isFile_iff :
    t.isFile path = true ↔ t.isText path = true ∨ t.read path = .error .notText := by
  unfold read isFile isText
  rcases t.find? path with _ | (text | _ | entries) <;> simp [Node.isDirectory, Node.text?]

/-- **What is there is a file or a directory**, and not both. -/
theorem isFile_eq_not_isDirectory (h : t.holds path = true) :
    t.isFile path = !t.isDirectory path := by
  unfold isFile isDirectory
  unfold holds at h
  obtain ⟨n, hn⟩ := Option.isSome_iff_exists.1 h
  rw [hn]
  rfl

theorem holds_of_isText (h : t.isText path = true) : t.holds path = true :=
  Option.isSome_of_any h

theorem holds_of_isDirectory (h : t.isDirectory path = true) : t.holds path = true :=
  Option.isSome_of_any h

theorem holds_of_read_notText (h : t.read path = .error .notText) : t.holds path = true := by
  rw [← Bool.not_eq_false, ← read_eq_missing_iff, h]
  exact nofun

/-- What is there and cannot be read is a directory, or a file that holds no text. -/
theorem unreadable_of_not_isText (h : t.holds path = true) (hnot : t.isText path = false) :
    t.isDirectory path = true ∨ t.read path = .error .notText := by
  rw [← Bool.not_eq_true] at hnot
  cases hdir : t.isDirectory path with
  | true => exact .inl rfl
  | false =>
    have hfile : t.isFile path = true := by
      rw [isFile_eq_not_isDirectory h, hdir]
      rfl
    exact .inr ((isFile_iff.1 hfile).resolve_left hnot)

theorem exists_error_of_not_isFile (h : t.isFile path = false) :
    ∃ e, t.read path = .error e := by
  cases hread : t.read path with
  | error e => exact ⟨e, rfl⟩
  | ok text =>
    rw [isFile_iff.2 (.inl (isText_iff.2 ⟨text, hread⟩))] at h
    cases h

end Tree

end IdlDocs.Files
