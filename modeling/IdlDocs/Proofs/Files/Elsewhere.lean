import IdlDocs.Proofs.Files.Writing
import Mathlib.Data.Set.Insert

/-!
# Files that stay as they are

Where a file is written can be read off its path: each step of the path goes down, stays or goes up.
Directories are made on the way, and all files at other places stay as they are.

* `stepFrom`, `Tree.placeOf`: the place that a path names.
* `placeOf_joinPaths`: the place of a path that goes on by names.
* `Node.SameBut`: nothing vanishes, and the files are the same but for those at some places.
* `Tree.write?_only`: **writing touches only the file at the place that its path names.**
-/

namespace IdlDocs.Files

/-! ## Places of paths -/

def stepFrom (here : List String) (step : String) : List String :=
  if step = "." then here else if step = ".." then here.dropLast else here ++ [step]

/-- The place that a path names. -/
def Tree.placeOf (t : Tree) (path : String) : List String :=
  (segments path).foldl stepFrom (t.start path)

theorem stepFrom_of_ne {step : String} (hdot : step ≠ ".") (hdots : step ≠ "..")
    (here : List String) : stepFrom here step = here ++ [step] := by
  unfold stepFrom
  rw [if_neg hdot, if_neg hdots]

theorem ne_dots_of_isName {name : String} (h : isName name = true) :
    name ≠ "." ∧ name ≠ ".." := by
  unfold isName at h
  simp only [Bool.and_eq_true, bne_iff_ne] at h
  exact h.1.1

theorem foldl_stepFrom {names : List String} (h : ∀ name ∈ names, name ≠ "." ∧ name ≠ "..")
    (here : List String) : names.foldl stepFrom here = here ++ names := by
  induction names generalizing here with
  | nil => exact (List.append_nil here).symm
  | cons name names ih =>
    have hname := h name List.mem_cons_self
    rw [List.foldl_cons, stepFrom_of_ne hname.1 hname.2,
      ih fun n hn => h n (List.mem_cons_of_mem name hn), List.append_assoc]
    rfl

theorem joinPath_empty (path : String) : joinPath "" path = path := by simp [joinPath]

/-- Names lead on from any path, also from the empty one. -/
theorem goesOn_of_ne_nil (base : String) {names : List String} (h : ∀ name ∈ names, IsStep name)
    (hne : names ≠ []) : GoesOn base (joinPaths base names) names := by
  by_cases hbase : base = ""
  · subst hbase
    obtain ⟨name, rest, rfl⟩ := List.exists_cons_of_ne_nil hne
    have hname := h name List.mem_cons_self
    have hrest := goesOn_joinPaths hname.ne_empty fun n hn => h n (List.mem_cons_of_mem name hn)
    have hjoin : joinPaths "" (name :: rest) = joinPaths name rest := by
      show joinPaths (joinPath "" name) rest = _
      rw [joinPath_empty]
    rw [hjoin]
    refine ⟨hrest.ne_empty, ?_, ?_, ?_⟩
    · have hroot : fromRoot name = false :=
        beq_false_of_ne fun he => hname.noSlash (List.mem_of_head? he)
      rw [hrest.fromRoot, hroot]
      rfl
    · rw [hrest.segments, segments_of_isStep hname]
      rfl
    · intro _
      cases rest with
      | nil =>
        have hlast := endsInSlash_append_of_isStep "" hname
        rwa [String.empty_append] at hlast
      | cons n ns => exact hrest.endsInSlash (List.cons_ne_nil n ns)
  · exact goesOn_joinPaths hbase h

/-- **The place of a path that goes on by names** is below that of the path in front. -/
theorem placeOf_joinPaths (t : Tree) (base : String) {names : List String}
    (h : ∀ name ∈ names, IsStep name ∧ name ≠ "." ∧ name ≠ "..") (hne : names ≠ []) :
    t.placeOf (joinPaths base names) = t.placeOf base ++ names := by
  have hpath := goesOn_of_ne_nil base (fun name hname => (h name hname).1) hne
  unfold Tree.placeOf
  rw [hpath.segments, Tree.start_eq hpath.fromRoot, List.foldl_append,
    foldl_stepFrom fun name hname => (h name hname).2]

/-! ## The same files -/

namespace Node

/-- Nothing has vanished, and the files are the same but for those at some places. -/
structure SameBut (places : Set (List String)) (before after : Node) : Prop where
  grows : before.Grows after
  same : ∀ place, place ∉ places → ∀ n : Node, n.isDirectory = false →
    (after.get? place = some n ↔ before.get? place = some n)

variable {places places' : Set (List String)} {node new : Node} {here : List String}

theorem SameBut.refl (places : Set (List String)) (node : Node) : node.SameBut places node :=
  ⟨⟨fun _ h => h, fun _ h => h⟩, fun _ _ _ _ => .rfl⟩

theorem SameBut.trans {before between after : Node} (h : before.SameBut places between)
    (h' : between.SameBut places after) : before.SameBut places after where
  grows := ⟨fun p hp => h'.grows.there p (h.grows.there p hp),
    fun p hp => h'.grows.directory p (h.grows.directory p hp)⟩
  same place hplace n hn := (h'.same place hplace n hn).trans (h.same place hplace n hn)

theorem SameBut.mono {before after : Node} (h : before.SameBut places after)
    (hsub : places ⊆ places') : before.SameBut places' after :=
  ⟨h.grows, fun place hplace => h.same place fun hmem => hplace (hsub hmem)⟩

theorem ne_of_isDirectory {found : Option Node} (h : found.any isDirectory = true) {n : Node}
    (hn : n.isDirectory = false) : found ≠ some n := by
  rintro rfl
  rw [Option.any_some, hn] at h
  cases h

theorem isDirectory_of_prefix {other : List String} (h : other <+: here)
    (hdir : (node.get? here).any isDirectory = true) :
    (node.get? other).any isDirectory = true := by
  obtain ⟨tail, rfl⟩ := h
  cases tail with
  | nil => rwa [List.append_nil] at hdir
  | cons x tail =>
    rw [get?_append] at hdir
    cases hn : node.get? other with
    | none =>
      rw [hn] at hdir
      cases hdir
    | some n =>
      rw [hn] at hdir
      obtain ⟨m, hm⟩ := Option.isSome_iff_exists.1 (Option.isSome_of_any hdir)
      obtain ⟨entries, rfl⟩ := exists_directory_of_get?_cons hm
      rfl

theorem get?_append_of_not_isDirectory {place : List String}
    (h : (node.get? place).any isDirectory = false) (x : String) (tail : List String) :
    node.get? (place ++ x :: tail) = none := by
  rw [get?_append]
  cases hn : node.get? place with
  | none => rfl
  | some n =>
    rw [hn] at h
    cases n with
    | file text => rfl
    | binary => rfl
    | directory entries => cases h

/-- **What is put into a directory, where no directory is, leaves all other files as they are.** -/
theorem sameBut_put (hdir : (node.get? here).any isDirectory = true) {name : String}
    (hname : (node.get? (here ++ [name])).any isDirectory = false) (hnew : new.entries = []) :
    node.SameBut {here ++ [name]} (node.put new (here ++ [name])) := by
  refine ⟨grows_put hname new, ?_⟩
  intro other hother n hn
  rw [Set.mem_singleton_iff] at hother
  by_cases hway : other <+: here ++ [name]
  · -- On the way there are directories, before and after.
    have hafter : ((node.put new (here ++ [name])).get? other).any isDirectory = true :=
      isDirectory_on_way hway hother
    have hbefore := isDirectory_of_prefix
      ((List.prefix_concat_iff.1 hway).resolve_left hother) hdir
    exact iff_of_false (ne_of_isDirectory hafter hn) (ne_of_isDirectory hbefore hn)
  · by_cases hbelow : here ++ [name] <+: other
    · obtain ⟨tail, rfl⟩ := hbelow
      cases tail with
      | nil => exact absurd (List.append_nil _) hother
      | cons x tail =>
        rw [get?_append_of_not_isDirectory hname, get?_append, get?_put_self]
        have hnone : new.get? (x :: tail) = none := by
          rw [get?, hnew]
          rfl
        rw [Option.bind_some, hnone]
    · rw [get?_put_of_disjoint hbelow hway]

/-- A directory that is made changes no file. -/
theorem sameBut_make (hdir : (node.get? here).any isDirectory = true) {name : String}
    (hname : node.get? (here ++ [name]) = none) :
    node.SameBut ∅ (node.put (.directory []) (here ++ [name])) := by
  have hput : node.SameBut {here ++ [name]} (node.put (.directory []) (here ++ [name])) :=
    sameBut_put hdir (by rw [hname]; rfl) rfl
  refine ⟨hput.grows, ?_⟩
  intro other _ n hn
  by_cases he : other = here ++ [name]
  · subst he
    rw [get?_put_self, hname]
    exact iff_of_false (ne_of_isDirectory rfl hn) nofun
  · exact hput.same other he n hn

end Node

/-! ## Writing -/

namespace Tree

variable {root root' : Node} {here next : List String} {t t' : Tree}

/-- A step enters the place that it leads to, and changes no file. -/
theorem enter?_only {step : String} (h : enter? (root, here) step = some (root', next))
    (hdir : (root.get? here).any Node.isDirectory = true) :
    next = stepFrom here step ∧ (root'.get? next).any Node.isDirectory = true ∧
      root.SameBut ∅ root' := by
  unfold enter? at h
  dsimp only at h
  cases hstep : step? root here step with
  | some place =>
    rw [hstep] at h
    dsimp only at h
    by_cases hplace : (root.get? place).any Node.isDirectory = true
    · rw [if_pos hplace] at h
      cases h
      refine ⟨?_, hplace, .refl _ _⟩
      obtain ⟨-, ⟨rfl, rfl⟩ | ⟨rfl, rfl⟩ | ⟨hname, -, rfl⟩⟩ := step?_eq_some_iff.1 hstep
      · rfl
      · rfl
      · have hne := ne_dots_of_isName hname
        exact (stepFrom_of_ne hne.1 hne.2 here).symm
    · rw [if_neg hplace] at h
      cases h
  | none =>
    rw [hstep] at h
    dsimp only at h
    by_cases hname : (isName step && (root.get? here).any Node.isDirectory) = true
    · rw [if_pos hname] at h
      cases h
      rw [Bool.and_eq_true] at hname
      have hne := ne_dots_of_isName hname.1
      have hmissing : root.get? (here ++ [step]) = none := by
        rw [← Option.not_isSome_iff_eq_none]
        intro hthere
        rw [step?_of_isName hname.1 hthere] at hstep
        cases hstep
      refine ⟨(stepFrom_of_ne hne.1 hne.2 here).symm, ?_, Node.sameBut_make hdir hmissing⟩
      rw [Node.get?_put_self]
      rfl
    · rw [if_neg hname] at h
      cases h

/-- Steps enter the place that they lead to, and change no file. -/
theorem enter_only {steps : List String} (h : steps.foldlM enter? (root, here) = some (root', next))
    (hdir : (root.get? here).any Node.isDirectory = true) :
    next = steps.foldl stepFrom here ∧ (root'.get? next).any Node.isDirectory = true ∧
      root.SameBut ∅ root' := by
  induction steps generalizing root here with
  | nil =>
    cases h
    exact ⟨rfl, hdir, .refl _ _⟩
  | cons step steps ih =>
    rw [List.foldlM_cons] at h
    obtain ⟨⟨root₁, place⟩, hone, hrest⟩ := Option.bind_eq_some_iff.1 h
    obtain ⟨rfl, hdir₁, hsame⟩ := enter?_only hone hdir
    obtain ⟨hnext, hdir', hsame'⟩ := ih hrest hdir₁
    exact ⟨hnext, hdir', hsame.trans hsame'⟩

/-- **Writing touches only the file at the place that its path names**, where paths start at a
directory. -/
theorem write?_only {path text : String} (h : t.write? path text = some t')
    (hstart : (t.root.get? (t.start path)).any Node.isDirectory = true) :
    t'.current = t.current ∧ t'.root.get? (t.placeOf path) = some (.file text) ∧
      t.root.SameBut {t.placeOf path} t'.root := by
  unfold write? at h
  obtain ⟨name, hlast, h⟩ := Option.bind_eq_some_iff.1 h
  obtain ⟨before, hsteps⟩ := List.getLast?_eq_some_iff.1 hlast
  by_cases hname : isName name = true
  · rw [hname] at h
    obtain ⟨⟨root', dir⟩, henter, h⟩ := Option.bind_eq_some_iff.1 h
    rw [hsteps, List.dropLast_concat] at henter
    obtain ⟨rfl, hdir, hsame⟩ := enter_only henter hstart
    have hne := ne_dots_of_isName hname
    have hplace : t.placeOf path = before.foldl stepFrom (t.start path) ++ [name] := by
      have hsegments : segments path = before ++ [name] := by
        unfold steps at hsteps
        cases hslash : endsInSlash path with
        | true =>
          rw [hslash] at hsteps
          exact absurd (List.append_inj_right' hsteps rfl) (by simp [Ne.symm hne.1])
        | false => rwa [hslash, if_neg Bool.false_ne_true, List.append_nil] at hsteps
      unfold placeOf
      rw [hsegments, List.foldl_append, List.foldl_cons, List.foldl_nil,
        stepFrom_of_ne hne.1 hne.2]
    rw [hplace]
    cases hthere : (root'.get? (before.foldl stepFrom (t.start path) ++ [name])).any
        Node.isDirectory with
    | true =>
      simp [hthere] at h
    | false =>
      simp only [hthere] at h
      cases h
      refine ⟨rfl, Node.get?_put_self _ _ _, ?_⟩
      exact (hsame.mono (Set.empty_subset _)).trans (Node.sameBut_put hdir hthere rfl)
  · rw [Bool.not_eq_true] at hname
    simp [hname] at h

end Tree

end IdlDocs.Files
