import IdlDocs.Files.Tree
import Mathlib.Data.List.Infix

/-!
# Nodes that are put at places

* `Node.get?_append`: a place below another one.
* `Node.get?_put_self`, `Node.get?_put_of_disjoint`, `Node.isDirectory_on_way`: **what is
  at a place after a node has been put somewhere**: this node, what was there before if neither
  place leads to the other one, and a directory on the way.
* `Node.get?_put_append`: a node that is put below a place.
* `Node.Made`, `Node.made_put`: a directory that is made on the way makes no difference.
* `Node.Grows`, `Node.grows_put`: **nothing vanishes** where a node is put that stands for no
  directory.
-/

namespace IdlDocs.Files

/-! ## Entries -/

theorem lookup_cons_eq (name other : String) (node : Node) (rest : List (String × Node)) :
    ((name, node) :: rest).lookup other =
      if other = name then some node else rest.lookup other := by
  rw [List.lookup_cons]
  by_cases h : other = name
  · rw [if_pos h, h, beq_self_eq_true]
  · rw [if_neg h, beq_false_of_ne h]

theorem lookup_putEntry (name other : String) (node : Node) (entries : List (String × Node)) :
    (Node.putEntry name node entries).lookup other =
      if other = name then some node else entries.lookup other := by
  induction entries with
  | nil => exact lookup_cons_eq name other node []
  | cons e rest ih =>
    obtain ⟨n, old⟩ := e
    rw [Node.putEntry]
    by_cases hn : n = name
    · rw [if_pos (by rw [beq_iff_eq]; exact hn), lookup_cons_eq, lookup_cons_eq, hn]
      split <;> rfl
    · rw [if_neg (by rw [beq_iff_eq]; exact hn), lookup_cons_eq, lookup_cons_eq, ih]
      split
      · next ho => rw [ho, if_neg hn]
      · rfl

theorem putEntry_putEntry (name : String) (a b : Node) (entries : List (String × Node)) :
    Node.putEntry name b (Node.putEntry name a entries) = Node.putEntry name b entries := by
  induction entries with
  | nil => simp [Node.putEntry]
  | cons e rest ih =>
    obtain ⟨n, old⟩ := e
    by_cases hn : n = name
    · simp [Node.putEntry, hn]
    · simp [Node.putEntry, hn, ih]

namespace Node

variable {node new : Node} {place other : List String}

/-! ## Places -/

theorem get?_append (node : Node) (place rest : List String) :
    node.get? (place ++ rest) = (node.get? place).bind (·.get? rest) := by
  induction place generalizing node with
  | nil => rfl
  | cons name place ih =>
    rw [List.cons_append, get?, get?]
    cases node.entries.lookup name with
    | none => rfl
    | some child => exact ih child

theorem exists_directory_of_get?_cons {name : String} {rest : List String} {n : Node}
    (h : node.get? (name :: rest) = some n) : ∃ entries, node = directory entries := by
  cases node with
  | file text => cases h
  | binary => cases h
  | directory entries => exact ⟨entries, rfl⟩

theorem all_of_any {found : Option Node} (h : found.any isDirectory = true) :
    found.all isDirectory = true := by
  cases found with
  | none => rfl
  | some n => exact h

theorem get?_put_cons (name x : String) (rest : List String) :
    (node.put new (name :: place)).get? (x :: rest) =
      if x = name then
        (((node.entries.lookup name).getD (directory [])).put new place).get? rest
      else node.get? (x :: rest) := by
  rw [put, get?, get?]
  change ((putEntry name _ node.entries).lookup x).bind _ = _
  rw [lookup_putEntry]
  by_cases h : x = name
  · rw [if_pos h, if_pos h]; rfl
  · rw [if_neg h, if_neg h]

theorem get?_put_self (node new : Node) (place : List String) :
    (node.put new place).get? place = some new := by
  induction place generalizing node with
  | nil => rfl
  | cons name place ih => rw [get?_put_cons, if_pos rfl, ih]

/-- Where neither of two places leads to the other, what is put at one of them leaves the other
one as it is. -/
theorem get?_put_of_disjoint (h : ¬place <+: other) (h' : ¬other <+: place) :
    (node.put new place).get? other = node.get? other := by
  induction place generalizing node other with
  | nil => exact absurd List.nil_prefix h
  | cons name place ih =>
    cases other with
    | nil => exact absurd List.nil_prefix h'
    | cons x rest =>
      rw [get?_put_cons]
      split
      · next hx =>
        subst hx
        rw [List.prefix_cons_inj] at h h'
        rw [ih h h', get?]
        cases node.entries.lookup x with
        | some child => rfl
        | none =>
          -- Nothing is there, and a new directory does not have it either.
          cases rest with
          | nil => exact absurd List.nil_prefix h'
          | cons y rest => rfl
      · rfl

theorem isDirectory_on_way (h : other <+: place) (hne : other ≠ place) :
    ((node.put new place).get? other).any isDirectory = true := by
  induction other generalizing node place with
  | nil =>
    cases place with
    | nil => exact absurd rfl hne
    | cons name place => rfl
  | cons x rest ih =>
    obtain ⟨tail, rfl⟩ := h
    rw [List.cons_append, get?_put_cons, if_pos rfl]
    refine ih (List.prefix_append rest tail) fun he => hne ?_
    rw [List.cons_append, ← he]

theorem get?_put_append {n : Node} (h : node.get? place = some n) (rest : List String) :
    (node.put new (place ++ rest)).get? place = some (n.put new rest) := by
  induction place generalizing node with
  | nil => cases h; rfl
  | cons name place ih =>
    rw [get?] at h
    obtain ⟨child, hchild, hn⟩ := Option.bind_eq_some_iff.1 h
    rw [List.cons_append, get?_put_cons, if_pos rfl, hchild]
    exact ih hn

/-- A node looks at no more of what was there than at its entries. -/
theorem put_of_no_entries (h : node.entries = []) (new : Node) (place : List String) :
    (directory []).put new place = node.put new place := by
  cases place with
  | nil => rfl
  | cons name place => rw [put, put, h]; rfl

/-- A directory that is made on the way changes nothing, where there have been no entries. -/
theorem put_put (h : ∀ n, node.get? place = some n → n.entries = []) (rest : List String) :
    (node.put (directory []) place).put new (place ++ rest) = node.put new (place ++ rest) := by
  induction place generalizing node with
  | nil => exact put_of_no_entries (h node rfl) new rest
  | cons name place ih =>
    rw [List.cons_append, put, put, put]
    change directory (putEntry name (((putEntry name _ node.entries).lookup name).getD _ |>.put new
      (place ++ rest)) (putEntry name _ node.entries)) = _
    rw [lookup_putEntry, if_pos rfl, putEntry_putEntry, Option.getD_some, ih]
    intro n hn
    cases hc : node.entries.lookup name with
    | some child =>
      rw [hc] at hn
      exact h n (by rw [get?, hc]; exact hn)
    | none =>
      rw [hc] at hn
      cases place with
      | nil => cases hn; rfl
      | cons x rest => cases hn

/-! ## Directories that are made -/

/-- There is a directory at a place, and it makes no difference to what is below it nor to what
is put there. -/
structure Made (before after : Node) (place : List String) : Prop where
  isDirectory : (after.get? place).any isDirectory = true
  below : ∀ rest, rest ≠ [] → after.get? (place ++ rest) = before.get? (place ++ rest)
  put : ∀ new rest, after.put new (place ++ rest) = before.put new (place ++ rest)

theorem Made.refl (h : (node.get? place).any Node.isDirectory = true) : node.Made node place :=
  ⟨h, fun _ _ => rfl, fun _ _ => rfl⟩

theorem Made.trans {before between after : Node} (h : before.Made between place)
    {rest : List String} (h' : between.Made after (place ++ rest)) :
    before.Made after (place ++ rest) where
  isDirectory := h'.isDirectory
  below more hne := by
    rw [h'.below more hne, List.append_assoc]
    exact h.below _ fun he => hne (List.append_eq_nil_iff.1 he).2
  put new more := by rw [h'.put, List.append_assoc, h.put]

/-- **A directory that is made where nothing was makes no difference.** -/
theorem made_put (h : node.get? place = none) :
    node.Made (node.put (.directory []) place) place where
  isDirectory := by rw [get?_put_self]; rfl
  below rest hne := by
    rw [get?_append, get?_put_self, get?_append, h]
    cases rest with
    | nil => exact absurd rfl hne
    | cons name rest => rfl
  put new rest := put_put (fun n hn => by rw [h] at hn; cases hn) rest

/-! ## What grows -/

/-- What is there stays there, and directories stay directories. -/
structure Grows (before after : Node) : Prop where
  there : ∀ place, (before.get? place).isSome → (after.get? place).isSome
  directory : ∀ place, (before.get? place).any isDirectory → (after.get? place).any isDirectory

/-- **Nothing vanishes** where a node is put that stands for no directory. -/
theorem grows_put (h : (node.get? place).any isDirectory = false) (new : Node) :
    node.Grows (node.put new place) := by
  have hboth : ∀ other, (node.get? other).isSome → other ≠ place →
      ((node.put new place).get? other).any isDirectory = true ∨
        (node.put new place).get? other = node.get? other := by
    intro other hthere hne
    by_cases hp : other <+: place
    · exact .inl (isDirectory_on_way hp hne)
    · refine .inr (get?_put_of_disjoint (fun ⟨tail, ht⟩ => ?_) hp)
      -- What stands behind the place would stand behind a directory.
      subst ht
      rw [get?_append] at hthere
      cases hn : node.get? place with
      | none => rw [hn] at hthere; cases hthere
      | some n =>
        rw [hn] at hthere h
        cases tail with
        | nil => exact hne (List.append_nil place)
        | cons x tail =>
          obtain ⟨m, hm⟩ := Option.isSome_iff_exists.1 hthere
          change n.get? (x :: tail) = some m at hm
          obtain ⟨entries, rfl⟩ := exists_directory_of_get?_cons hm
          cases h
  refine ⟨fun other hthere => ?_, fun other hdir => ?_⟩
  · by_cases he : other = place
    · rw [he, get?_put_self]; rfl
    · rcases hboth other hthere he with hd | heq
      · exact Option.isSome_of_any hd
      · rw [heq]; exact hthere
  · have hthere : (node.get? other).isSome := Option.isSome_of_any hdir
    by_cases he : other = place
    · rw [he, h] at hdir; cases hdir
    · rcases hboth other hthere he with hd | heq
      · exact hd
      · rw [heq]; exact hdir

end Node

end IdlDocs.Files
