import IdlDocs.Files.Path
import IdlDocs.Text.Order

/-!
# Trees of files

A **tree** holds directories and files by name; the content of a file is a text, or is none.  A
**place** is the list of names that leads to an entry from the root; the steps of a path lead to a
place, where each step but the last one must lead to a directory.

* `Tree.find?`: what a path leads to.
* `Tree.read`: the text of a file.
* `Tree.write?`: **a tree with one more file**, and the directories that lead to it.
* `Tree.files`, `Tree.changes`: the texts below a place, and those of them that are new.
-/

namespace IdlDocs.Files

/-- A file or a directory. -/
inductive Node
  | file (text : String)
  /-- A file with a content that is no text. -/
  | binary
  | directory (entries : List (String × Node))

namespace Node

def entries : Node → List (String × Node)
  | file _ | binary => []
  | directory entries => entries

/-- Tells whether the node is a directory. -/
def isDirectory : Node → Bool
  | file _ | binary => false
  | directory _ => true

/-- The node at a place. -/
def get? (node : Node) : List String → Option Node
  | [] => some node
  | name :: place => (node.entries.lookup name).bind (·.get? place)

def putEntry (name : String) (node : Node) : List (String × Node) → List (String × Node)
  | [] => [(name, node)]
  | (n, old) :: rest => if n == name then (n, node) :: rest else (n, old) :: putEntry name node rest

/-- The node with `new` at a place.  What is missing on the way becomes a directory. -/
def put (node : Node) (new : Node) : List String → Node
  | [] => new
  | name :: place =>
    directory (putEntry name
      (((node.entries.lookup name).getD (directory [])).put new place) node.entries)

mutual

/-- The texts of the files below a node. -/
def texts : Node → List String
  | file text => [text]
  | binary => []
  | directory entries => entryTexts entries

def entryTexts : List (String × Node) → List String
  | [] => []
  | (_, node) :: rest => node.texts ++ entryTexts rest

end

theorem texts_subset_of_lookup {entries : List (String × Node)} {name : String} {node : Node}
    (h : entries.lookup name = some node) {text : String} (ht : text ∈ node.texts) :
    text ∈ entryTexts entries := by
  induction entries with
  | nil => simp at h
  | cons e rest ih =>
    obtain ⟨n, m⟩ := e
    rw [List.lookup_cons] at h
    rw [entryTexts, List.mem_append]
    split at h
    · cases h; exact Or.inl ht
    · exact Or.inr (ih h)

theorem mem_texts_of_get? {node : Node} {place : List String} {text : String}
    (h : node.get? place = some (file text)) : text ∈ node.texts := by
  induction place generalizing node with
  | nil => simp only [get?, Option.some.injEq] at h; subst h; simp [texts]
  | cons name place ih =>
    rw [get?] at h
    obtain ⟨next, hn, hg⟩ := Option.bind_eq_some_iff.1 h
    cases node with
    | file t => simp [entries] at hn
    | binary => simp [entries] at hn
    | directory es => rw [texts]; exact texts_subset_of_lookup hn (ih hg)

end Node

/-- A tree of files, and the place at which paths start that do not start at the root. -/
structure Tree where
  root : Node := .directory []
  current : List String := []

/-- Why a text cannot be read. -/
inductive ReadError
  | missing
  | isDirectory
  /-- There is a file, but its content is no text. -/
  | notText
deriving DecidableEq

namespace Tree

def step? (root : Node) (here : List String) (step : String) : Option (List String) :=
  match root.get? here with
  | some (.directory entries) =>
    if step == "." then some here
    else if step == ".." then some here.dropLast
    else if isName step && (entries.lookup step).isSome then some (here ++ [step])
    else none
  | _ => none

/-- The place at which a path starts. -/
def start (t : Tree) (path : String) : List String :=
  if fromRoot path then [] else t.current

def place? (t : Tree) (path : String) : Option (List String) :=
  if path == "" then none else (steps path).foldlM (step? t.root) (t.start path)

/-- What a path leads to. -/
def find? (t : Tree) (path : String) : Option Node := (t.place? path).bind t.root.get?

/-- Tells whether a path leads anywhere. -/
def holds (t : Tree) (path : String) : Bool := (t.find? path).isSome

/-- Tells whether a path leads to a directory. -/
def isDirectory (t : Tree) (path : String) : Bool := (t.find? path).any Node.isDirectory

/-- Tells whether a path leads to a file. -/
def isFile (t : Tree) (path : String) : Bool := (t.find? path).any (!·.isDirectory)

/-- The text of the file that a path leads to. -/
def read (t : Tree) (path : String) : Except ReadError String :=
  match t.find? path with
  | some (.file text) => .ok text
  | some .binary => .error .notText
  | some (.directory _) => .error .isDirectory
  | none => .error .missing

theorem mem_texts_of_read {t : Tree} {path text : String} (h : t.read path = .ok text) :
    text ∈ t.root.texts := by
  unfold read at h
  split at h
  · next found hf =>
    cases h
    obtain ⟨place, _, hg⟩ := Option.bind_eq_some_iff.1 hf
    exact Node.mem_texts_of_get? hg
  · cases h
  · cases h
  · cases h

/-- The place that a step leads to, with a new directory there if nothing is there yet. -/
def enter? (at' : Node × List String) (step : String) : Option (Node × List String) :=
  let (root, here) := at'
  match step? root here step with
  | some next =>
    if (root.get? next).any Node.isDirectory then some (root, next) else none
  | none =>
    if isName step && (root.get? here).any Node.isDirectory then
      some (root.put (.directory []) (here ++ [step]), here ++ [step])
    else none

/-- The tree with a text in the file that a path names.  Directories that lead to it are
made; nothing is written where a directory is, or below a file. -/
def write? (t : Tree) (path text : String) : Option Tree := do
  let name ← (steps path).getLast?
  if !isName name then none
  let (root, here) ← (steps path).dropLast.foldlM enter? (t.root, t.start path)
  let place := here ++ [name]
  if (root.get? place).any Node.isDirectory then none
  return { t with root := root.put (.file text) place }

def makeDirectory? (t : Tree) (path : String) : Option Tree := do
  let (root, _) ← (steps path).foldlM enter? (t.root, t.start path)
  return { t with root }

end Tree

mutual

/-- The texts below a node, by path from there. -/
def Node.files : Node → List (String × String)
  | .file _ | .binary => []
  | .directory entries => entryFiles entries

def entryFiles : List (String × Node) → List (String × String)
  | [] => []
  | (name, .file text) :: rest => (name, text) :: entryFiles rest
  | (_, .binary) :: rest => entryFiles rest
  | (name, .directory entries) :: rest =>
    (entryFiles entries).map (fun (path, text) => (name ++ "/" ++ path, text)) ++ entryFiles rest

end

/-- The texts below the place that a path leads to, by path from there, in order. -/
def Tree.files (t : Tree) (path : String) : List (String × String) :=
  ((t.find? path).elim [] Node.files).mergeSort fun a b => Text.notAbove a.1 b.1

/-- The texts below a path that are not in another tree, or are others there. -/
def Tree.changes (t before : Tree) (path : String) : List (String × String) :=
  (t.files path).filter fun f => (before.files path).lookup f.1 != some f.2

end IdlDocs.Files
