import IdlDocs.Failure
import IdlDocs.Files.Tree

/-!
# Sources of documents

A **source** answers a location with the text of a document, the same one each time it is
asked.

* `Source.memory`: texts that are stored under the ends of locations.
* `Source.directory`: **a copy in a directory**, where a location stands for the files
  that the ends of its path name, the longest one first.
* `Source.outside`: no texts at all.
-/

namespace IdlDocs

/-- A location that cannot be read, and why. -/
structure FetchError where
  location : String
  cause : FetchCause
deriving DecidableEq

/-- A source of documents. -/
structure Source where
  /-- The text of the document at a location. -/
  answer : String → Except FetchError String

namespace Source

/-! ## In memory -/

/-- The entries with a text under a key, and no other text under it. -/
def withText (key text : String) (documents : List (String × String)) : List (String × String) :=
  (key, text) :: documents.filter (·.1 != key)

/-- Of two entries the one with the longer key, in bytes, and the second one if the keys are
equally long. -/
def longerKey (a b : String × String) : String × String :=
  if b.1.utf8ByteSize < a.1.utf8ByteSize then a else b

/-- The entry with the longest key that a location ends with, after a slash. -/
def longestEnd? (documents : List (String × String)) (location : String) :
    Option (String × String) :=
  match documents.filter fun d => ('/' :: d.1.toList).isSuffixOf location.toList with
  | [] => none
  | d :: ds => some (ds.foldl longerKey d)

/-- The text for a location: the one with this key, else the one with the longest key
that the location ends with. -/
def lookup? (documents : List (String × String)) (location : String) : Option String :=
  match documents.lookup location with
  | some text => some text
  | none => (longestEnd? documents location).map (·.2)

theorem longerKey_eq (a b : String × String) : longerKey a b = a ∨ longerKey a b = b := by
  unfold longerKey; split <;> simp

theorem foldl_longerKey_mem (ds : List (String × String)) (d : String × String) :
    ds.foldl longerKey d ∈ d :: ds := by
  induction ds generalizing d with
  | nil => simp
  | cons e ds ih =>
    rw [List.foldl_cons]
    rcases longerKey_eq d e with h | h <;> rw [h]
    · rcases List.mem_cons.1 (ih d) with h' | h'
      · rw [h']; simp
      · simp [h']
    · exact List.mem_cons_of_mem d (ih e)

theorem mem_of_lookup {κ α : Type} [BEq κ] [LawfulBEq κ] {entries : List (κ × α)} {key : κ}
    {a : α} (h : entries.lookup key = some a) : (key, a) ∈ entries := by
  obtain ⟨front, back, rfl, -⟩ := List.lookup_eq_some_iff.1 h
  exact List.mem_append_right front List.mem_cons_self

theorem lookup?_mem {documents : List (String × String)} {location text : String}
    (h : lookup? documents location = some text) : text ∈ documents.map (·.2) := by
  unfold lookup? at h
  split at h
  · next t ht =>
    cases h
    exact List.mem_map.2 ⟨_, mem_of_lookup ht, rfl⟩
  · obtain ⟨d, hd, rfl⟩ := Option.map_eq_some_iff.1 h
    unfold longestEnd? at hd
    split at hd
    · cases hd
    · next e es he =>
      cases hd
      have hm : es.foldl longerKey e ∈ documents.filter _ := he ▸ foldl_longerKey_mem es e
      exact List.mem_map.2 ⟨_, (List.mem_filter.1 hm).1, rfl⟩

/-- The source that holds texts in memory. -/
def memory (documents : List (String × String)) : Source where
  answer location :=
    match lookup? documents location with
    | some text => .ok text
    | none => .error ⟨location, .noDocument⟩

/-! ## In a directory -/

/-- What stands after the scheme and the host of a location. -/
def pathOf (location : String) : String :=
  match Text.cutAt "://".toList location.toList with
  | some (_, rest) =>
    match Text.cutAt ['/'] rest with
    | some (_, path) => String.ofList path
    | none => ""
  | none => location

/-- The ends of a list, the longest first, without the empty one. -/
def ends {α : Type} : List α → List (List α)
  | [] => []
  | a :: as => (a :: as) :: ends as

/-- The paths below a root that a location stands for, the longest first. -/
def candidates (root location : String) : List String :=
  (ends (Files.segments (pathOf location))).map (Files.joinPaths root)

def readFirst (files : Files.Tree) (root location : String) :
    List String → Except FetchError String
  | [] => .error ⟨location, .notUnder root⟩
  | path :: paths =>
    match files.read path with
    | .ok text => .ok text
    | .error .isDirectory => .error ⟨path, .isDirectory⟩
    | .error .notText => .error ⟨path, .notText⟩
    | .error .missing => readFirst files root location paths

theorem readFirst_mem {files : Files.Tree} {root location text : String} {paths : List String}
    (h : readFirst files root location paths = .ok text) : text ∈ files.root.texts := by
  induction paths with
  | nil => cases h
  | cons path paths ih =>
    rw [readFirst] at h
    split at h
    · next t ht => cases h; exact Files.Tree.mem_texts_of_read ht
    · cases h
    · cases h
    · exact ih h

/-- The source that reads the files below a directory. -/
def directory (files : Files.Tree) (root : String) : Source where
  answer location := readFirst files root location (candidates root location)

theorem directory_answer (files : Files.Tree) (root location : String) :
    (directory files root).answer location =
      readFirst files root location (candidates root location) := by
  simp only [directory]

/-! ## Outside -/

/-- The source that stands for what is outside, and is never reached. -/
def outside : Source where
  answer location := .error ⟨location, .unreachable location⟩

end Source

end IdlDocs
