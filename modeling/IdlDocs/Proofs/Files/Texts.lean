import IdlDocs.Proofs.Files.Reading
import IdlDocs.Proofs.Files.Writing

/-!
# Directories of texts

Texts may stand below a directory side by side, each as a file at the place that its path names.
No place may lead to another one, so that nothing is in the way of a text.

* `PrefixFree`, `Node.Open`: places of which none leads to another one, and where files may be
  put.
* `Node.get?_put_eq_file_iff`: the files that there are after one more has been put.
* `Node.Holds`: **the files below a directory are some texts**, each under its path.
* `Node.holds_ofTexts`: the directory that is made of some texts holds them.
* `Node.Holds.read`: what is read below such a directory.
-/

namespace IdlDocs.Files

variable {node : Node} {places : Set (List String)}

/-! ## Places of files -/

def PrefixFree (places : Set (List String)) : Prop :=
  ∀ p ∈ places, ∀ q ∈ places, p <+: q → p = q

/-- Files may be put at some places below a node: there are no directories at the places, and no
files on the way. -/
structure Node.Open (node : Node) (places : Set (List String)) : Prop where
  noDirectory : ∀ p ∈ places, (node.get? p).any Node.isDirectory = false
  noFile : ∀ p ∈ places, ∀ pre, pre <+: p → pre ≠ p → (node.get? pre).all Node.isDirectory = true

/-- Where nothing is, files may be put at any places. -/
theorem Node.open_empty (h : [] ∉ places) : (Node.directory []).Open places where
  noDirectory p hp := by
    cases p with
    | nil => exact absurd hp h
    | cons name rest => rfl
  noFile p _ pre _ _ := by
    cases pre with
    | nil => rfl
    | cons name rest => rfl

/-- **Files may still be put at all places after one of them has its file.** -/
theorem Node.Open.put (hfree : PrefixFree places) (h : node.Open places) {p : List String}
    (hp : p ∈ places) (text : String) : (node.put (.file text) p).Open places where
  noDirectory q hq := by
    by_cases he : p = q
    · rw [← he, Node.get?_put_self]
      rfl
    · rw [Node.get?_put_of_disjoint (fun hpq => he (hfree p hp q hq hpq))
        fun hqp => he (hfree q hq p hp hqp).symm]
      exact h.noDirectory q hq
  noFile q hq pre hpre hne := by
    by_cases hprep : pre <+: p
    · -- On the way to the file that has been put there are directories.
      have hnep : pre ≠ p := fun he => hne <| he.trans (hfree p hp q hq (he ▸ hpre))
      exact Node.all_of_any (Node.isDirectory_on_way hprep hnep)
    · have hppre : ¬p <+: pre := fun hpp =>
        hprep (by rw [hfree p hp q hq (hpp.trans hpre)]; exact hpre)
      rw [Node.get?_put_of_disjoint hppre hprep]
      exact h.noFile q hq pre hpre hne

theorem Node.get?_file_append {p tail : List String} (h : (node.get? p).any isDirectory = false)
    (htail : tail ≠ []) : node.get? (p ++ tail) = none := by
  rw [get?_append]
  obtain ⟨name, rest, rfl⟩ := List.exists_cons_of_ne_nil htail
  cases hp : node.get? p with
  | none => rfl
  | some n =>
    rw [hp] at h
    cases n with
    | directory entries => cases h
    | file text => rfl
    | binary => rfl

/-- **The files after one more has been put**: this one, and those at other places.  On the way
to it and behind it there has been no file, and there is none now. -/
theorem Node.get?_put_eq_file_iff (h : node.Open places) {p q : List String} (hp : p ∈ places)
    {text other : String} :
    (node.put (.file text) p).get? q = some (.file other) ↔
      (q = p ∧ other = text) ∨ (q ≠ p ∧ node.get? q = some (.file other)) := by
  by_cases he : q = p
  · subst he
    rw [get?_put_self]
    simp [eq_comm]
  · simp only [he, false_and, ne_eq, not_false_eq_true, true_and, false_or]
    by_cases hqp : q <+: p
    · have hdir : ((node.put (.file text) p).get? q).any isDirectory = true :=
        isDirectory_on_way hqp he
      constructor
      · intro hq
        rw [hq] at hdir
        cases hdir
      · intro hq
        have hway := h.noFile p hp q hqp he
        rw [hq] at hway
        cases hway
    · by_cases hpq : p <+: q
      · obtain ⟨tail, rfl⟩ := hpq
        have htail : tail ≠ [] := by
          intro hnil
          exact he (by rw [hnil, List.append_nil])
        rw [get?_file_append (h.noDirectory p hp) htail,
          get?_file_append (by rw [get?_put_self]; rfl) htail]
      · rw [get?_put_of_disjoint hpq hqp]

/-! ## Directories that hold texts -/

/-- The files below a node are some texts, each at the place that its path names, and nothing but
these texts. -/
structure Node.Holds (node : Node) (texts : List (String × String)) : Prop where
  names : ∀ d ∈ texts, ∀ name ∈ slashParts d.1, IsEntryName name
  file_iff : ∀ path text, (path, text) ∈ texts ↔
    node.get? (slashParts path) = some (.file text)
  noBinary : ∀ place, node.get? place ≠ some .binary

def Node.putTexts (node : Node) (texts : List (String × String)) : Node :=
  texts.foldl (fun node d => node.put (.file d.2) (slashParts d.1)) node

def Node.ofTexts (texts : List (String × String)) : Node := putTexts (.directory []) texts

/-- The files after texts have been put under different paths. -/
theorem Node.get?_putTexts_eq_file_iff (hfree : PrefixFree places)
    {texts : List (String × String)} (hplaces : ∀ d ∈ texts, slashParts d.1 ∈ places)
    (hnodup : (texts.map (·.1)).Nodup) (hopen : node.Open places) {path text : String} :
    (node.putTexts texts).get? (slashParts path) = some (.file text) ↔
      (path, text) ∈ texts ∨
        (path ∉ texts.map (·.1) ∧ node.get? (slashParts path) = some (.file text)) := by
  induction texts generalizing node with
  | nil => simp [putTexts]
  | cons d texts ih =>
    obtain ⟨key, t⟩ := d
    have hkey := hplaces (key, t) List.mem_cons_self
    rw [List.map_cons, List.nodup_cons] at hnodup
    change ((node.put (.file t) (slashParts key)).putTexts texts).get? (slashParts path) = _ ↔ _
    rw [ih (fun d hd => hplaces d (List.mem_cons_of_mem _ hd)) hnodup.2
      (hopen.put hfree hkey t), get?_put_eq_file_iff hopen hkey, List.map_cons, List.mem_cons,
      List.mem_cons, Prod.mk.injEq]
    by_cases he : path = key
    · subst he
      have hnew : (path, text) ∉ texts := fun hm => hnodup.1 (List.mem_map.2 ⟨_, hm, rfl⟩)
      simp [hnodup.1, hnew]
    · have hplace : slashParts path ≠ slashParts key := fun h => he (slashParts_injective h)
      simp [he, hplace]

theorem Node.noBinary_put (h : ∀ place, node.get? place ≠ some .binary) (text : String)
    (place other : List String) : (node.put (.file text) place).get? other ≠ some .binary := by
  induction place generalizing node other with
  | nil => cases other <;> exact nofun
  | cons name place ih =>
    cases other with
    | nil => exact nofun
    | cons x rest =>
      rw [get?_put_cons]
      split
      · refine ih (fun below => ?_) rest
        cases hchild : node.entries.lookup name with
        | none => cases below <;> exact nofun
        | some child =>
          have hbelow := h (name :: below)
          rwa [get?, hchild] at hbelow
      · exact h (x :: rest)

theorem Node.noBinary_putTexts (h : ∀ place, node.get? place ≠ some .binary)
    (texts : List (String × String)) (place : List String) :
    (node.putTexts texts).get? place ≠ some .binary := by
  induction texts generalizing node with
  | nil => exact h place
  | cons d texts ih => exact ih (noBinary_put h d.2 (slashParts d.1))

/-- **The directory of some texts holds them**, if they have different paths of names and no path
leads to another one. -/
theorem Node.holds_ofTexts {texts : List (String × String)}
    (hnames : ∀ d ∈ texts, ∀ name ∈ slashParts d.1, IsEntryName name)
    (hnodup : (texts.map (·.1)).Nodup)
    (hfree : PrefixFree {place | ∃ d ∈ texts, slashParts d.1 = place}) :
    (ofTexts texts).Holds texts where
  names := hnames
  file_iff path text := by
    have hopen : (directory []).Open {place | ∃ d ∈ texts, slashParts d.1 = place} := by
      refine open_empty ?_
      rintro ⟨d, -, hd⟩
      exact Text.parts_ne_nil '/' d.1.toList (List.map_eq_nil_iff.1 hd)
    have hnone : (directory []).get? (slashParts path) ≠ some (.file text) := by
      cases slashParts path with
      | nil => exact nofun
      | cons name rest => exact nofun
    unfold ofTexts
    rw [get?_putTexts_eq_file_iff hfree (fun d hd => ⟨d, hd, rfl⟩) hnodup hopen]
    simp [hnone]
  noBinary := noBinary_putTexts (fun place => by cases place <;> exact nofun) texts

/-! ## Reading below a directory -/

def Node.textAt? (node : Node) (place : List String) : Option String :=
  (node.get? place).bind text?

theorem Node.textAt?_eq_some_iff {place : List String} {text : String} :
    node.textAt? place = some text ↔ node.get? place = some (.file text) := by
  unfold textAt?
  rw [Option.bind_eq_some_iff]
  constructor
  · rintro ⟨n, hn, ht⟩
    cases n with
    | file t => cases ht; exact hn
    | binary => cases ht
    | directory entries => cases ht
  · intro h
    exact ⟨.file text, h, rfl⟩

theorem slashParts_intercalate {names : List String} (hne : names ≠ [])
    (h : ∀ name ∈ names, '/' ∉ name.toList) : slashParts ("/".intercalate names) = names := by
  unfold slashParts
  rw [String.toList_intercalate]
  change (Text.parts '/' (['/'].intercalate (names.map String.toList))).map _ = names
  induction names with
  | nil => exact absurd rfl hne
  | cons name names ih =>
    cases names with
    | nil =>
      rw [List.map_singleton, List.intercalate_singleton,
        Text.parts_of_notMem (h name List.mem_cons_self), List.map_singleton,
        String.ofList_toList]
    | cons other names =>
      have hrest := ih (List.cons_ne_nil _ _) fun n hn => h n (List.mem_cons_of_mem name hn)
      rw [List.map_cons, List.map_cons, List.intercalate_cons_cons, ← List.map_cons,
        List.append_assoc, List.singleton_append, Text.parts_append,
        Text.parts_of_notMem (h name List.mem_cons_self), List.map_append, hrest,
        List.map_singleton, String.ofList_toList]
      rfl

theorem Tree.eq_of_walk {root : Node} {here place names : List String}
    (h : ∀ name ∈ names, name ≠ "." ∧ name ≠ "..")
    (hwalk : names.foldlM (step? root) here = some place) : place = here ++ names := by
  induction names generalizing here with
  | nil => cases hwalk; rw [List.append_nil]
  | cons name names ih =>
    rw [List.foldlM_cons] at hwalk
    obtain ⟨next, hnext, hrest⟩ := Option.bind_eq_some_iff.1 hwalk
    obtain ⟨hdot, hdots⟩ := h name List.mem_cons_self
    have hdown : next = here ++ [name] := by
      obtain ⟨-, ⟨he, -⟩ | ⟨he, -⟩ | ⟨-, -, he⟩⟩ := step?_eq_some_iff.1 hnext
      · exact absurd he hdot
      · exact absurd he hdots
      · exact he
    rw [ih (fun n hn => h n (List.mem_cons_of_mem name hn)) hrest, hdown, List.append_assoc]
    rfl

/-- What a path leads to that goes on from a directory by names is at their place there. -/
theorem Tree.get?_of_find?_below {t : Tree} {base : String} {v n : Node}
    (h : t.find? base = some v) {names : List String} (hsteps : ∀ name ∈ names, IsStep name)
    (hdots : ∀ name ∈ names, name ≠ "." ∧ name ≠ "..") (hne : names ≠ [])
    (hn : t.find? (joinPaths base names) = some n) : v.get? names = some n := by
  obtain ⟨hbase, place, hwalk, hv⟩ := exists_walk_of_find? h
  have hpath := goesOn_joinPaths hbase hsteps
  unfold find? place? at hn
  rw [if_neg (by rw [beq_iff_eq]; exact hpath.ne_empty), hpath.steps hne,
    start_eq hpath.fromRoot, List.foldlM_append, hwalk] at hn
  obtain ⟨there, hthere, hget⟩ := Option.bind_eq_some_iff.1 hn
  rw [eq_of_walk hdots hthere, Node.get?_append, hv] at hget
  exact hget

/-- **What is read below a directory that holds texts** is the text at the place, if there is one.
A path of names that leads to no directory leads nowhere else. -/
theorem Node.Holds.read {texts : List (String × String)} (hnode : node.Holds texts) {t : Tree}
    {base : String} (h : t.find? base = some node) {names : List String}
    (hsteps : ∀ name ∈ names, IsStep name)
    (hdots : ∀ name ∈ names, name ≠ "." ∧ name ≠ "..") (hne : names ≠ [])
    (hdir : t.isDirectory (joinPaths base names) = false) :
    t.read (joinPaths base names) = (node.textAt? names).elim (.error .missing) .ok := by
  unfold Tree.read
  unfold Tree.isDirectory at hdir
  cases hfind : t.find? (joinPaths base names) with
  | some n =>
    have hget := Tree.get?_of_find?_below h hsteps hdots hne hfind
    rw [hfind] at hdir
    cases n with
    | directory entries => cases hdir
    | binary => exact absurd hget (hnode.noBinary names)
    | file text => rw [textAt?_eq_some_iff.2 hget]; rfl
  | none =>
    have hnone : node.textAt? names = none := by
      rw [Option.eq_none_iff_forall_ne_some]
      intro text htext
      rw [textAt?_eq_some_iff] at htext
      have hparts := slashParts_intercalate hne fun n hn => (hsteps n hn).noSlash
      have hmem : ("/".intercalate names, text) ∈ texts :=
        (hnode.file_iff _ _).2 (by rw [hparts]; exact htext)
      have hnames := hnode.names _ hmem
      rw [hparts] at hnames
      rw [Tree.find?_below h hnames hne htext] at hfind
      cases hfind
    rw [hnone]
    rfl

end IdlDocs.Files
