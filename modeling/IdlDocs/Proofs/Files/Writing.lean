import IdlDocs.Proofs.Files.Nodes

/-!
# Writing below a directory

A path that goes on from the path of a directory by some names leads to the place of these
names in the directory.

* `GoesOn`, `goesOn_joinPaths`: paths that go on by names.
* `Tree.find?_below`: what such a path leads to.
* `Tree.enter_names`: the directories on the way are made.
* `Tree.write?_below`: **a file that is written below a directory is put at its place there**,
  where no file is on the way and no directory at the place.
-/

namespace IdlDocs.Files

/-! ## Paths -/

/-- A text that is a single step of a path. -/
structure IsStep (name : String) : Prop where
  ne_empty : name ≠ ""
  noSlash : '/' ∉ name.toList

/-- A name that a file or a directory may have, and that is a single step of a path. -/
structure IsEntryName (name : String) : Prop where
  isName : isName name = true
  ne_empty : name ≠ ""
  noSlash : '/' ∉ name.toList

theorem IsEntryName.isStep {name : String} (h : IsEntryName name) : IsStep name :=
  ⟨h.ne_empty, h.noSlash⟩

instance decidableIsEntryName (name : String) : Decidable (IsEntryName name) :=
  decidable_of_iff (isName name = true ∧ name ≠ "" ∧ '/' ∉ name.toList)
    ⟨fun ⟨hname, hne, hslash⟩ => ⟨hname, hne, hslash⟩, fun h => ⟨h.isName, h.ne_empty, h.noSlash⟩⟩

/-- A path that goes on from another one by some names. -/
structure GoesOn (base path : String) (names : List String) : Prop where
  ne_empty : path ≠ ""
  fromRoot : fromRoot path = fromRoot base
  segments : segments path = segments base ++ names
  endsInSlash : names ≠ [] → endsInSlash path = false

theorem segments_of_isStep {name : String} (h : IsStep name) :
    segments name = [name] := by
  unfold segments slashParts
  rw [Text.parts_of_notMem h.noSlash, List.map_singleton, String.ofList_toList]
  exact List.filter_cons_of_pos (bne_iff_ne.2 h.ne_empty)

theorem slashParts_append (a b : String) :
    slashParts (a ++ "/" ++ b) = slashParts a ++ slashParts b := by
  unfold slashParts
  rw [String.toList_append, String.toList_append, List.append_assoc]
  change (Text.parts '/' (a.toList ++ '/' :: b.toList)).map String.ofList = _
  rw [Text.parts_append, List.map_append]

theorem segments_append (a b : String) : segments (a ++ "/" ++ b) = segments a ++ segments b := by
  unfold segments
  rw [slashParts_append, List.filter_append]

theorem slashParts_injective : Function.Injective slashParts := by
  intro a b h
  have hparts : Text.parts '/' a.toList = Text.parts '/' b.toList :=
    (List.map_injective_iff.2 fun _ _ => String.ofList_inj.1) h
  refine String.toList_inj.1 ?_
  rw [← Text.intercalate_parts '/' a.toList, hparts, Text.intercalate_parts]

theorem exists_of_endsInSlash {base : String} (h : endsInSlash base = true) :
    ∃ init, base = init ++ "/" := by
  obtain ⟨init, hinit⟩ := List.getLast?_eq_some_iff.1 (eq_of_beq h)
  refine ⟨String.ofList init, String.toList_inj.1 ?_⟩
  rw [hinit, String.toList_append, String.toList_ofList]
  rfl

theorem fromRoot_append {a : String} (h : a ≠ "") (b : String) :
    fromRoot (a ++ b) = fromRoot a := by
  unfold fromRoot
  rw [String.toList_append]
  cases ha : a.toList with
  | nil => exact absurd (String.toList_inj.1 ha) h
  | cons c cs => rfl

theorem endsInSlash_append_of_isStep (a : String) {name : String} (h : IsStep name) :
    endsInSlash (a ++ name) = false := by
  unfold endsInSlash
  rw [String.toList_append]
  have hne : name.toList ≠ [] := fun he => h.ne_empty (String.toList_inj.1 he)
  rw [List.getLast?_append_of_ne_nil _ hne]
  refine beq_false_of_ne fun he => h.noSlash (List.mem_of_getLast? he)

theorem append_ne_empty {a : String} (h : a ≠ "") (b : String) : a ++ b ≠ "" :=
  fun he => h (String.append_eq_empty_iff.1 he).1

theorem goesOn_joinPath {base name : String} (hbase : base ≠ "") (h : IsStep name) :
    GoesOn base (joinPath base name) [name] := by
  have hroot : Files.fromRoot name = false :=
    beq_false_of_ne fun he => h.noSlash (List.mem_of_head? he)
  unfold joinPath
  rw [hroot, Bool.false_or, if_neg (by rw [beq_iff_eq]; exact hbase)]
  split
  · next hslash =>
    refine ⟨append_ne_empty hbase name, fromRoot_append hbase name, ?_,
      fun _ => endsInSlash_append_of_isStep base h⟩
    obtain ⟨init, rfl⟩ := exists_of_endsInSlash hslash
    have hinit := segments_append init ""
    rw [String.append_empty] at hinit
    rw [segments_append, segments_of_isStep h, hinit, List.append_assoc]
    rfl
  · have hne := append_ne_empty hbase "/"
    refine ⟨append_ne_empty hne name, ?_, ?_, fun _ => endsInSlash_append_of_isStep _ h⟩
    · rw [fromRoot_append hne, fromRoot_append hbase]
    · rw [segments_append, segments_of_isStep h]

theorem goesOn_joinPaths {base : String} (hbase : base ≠ "") {names : List String}
    (h : ∀ name ∈ names, IsStep name) : GoesOn base (joinPaths base names) names := by
  induction names generalizing base with
  | nil => exact ⟨hbase, rfl, (List.append_nil _).symm, fun hne => absurd rfl hne⟩
  | cons name names ih =>
    have hone := goesOn_joinPath hbase (h name List.mem_cons_self)
    have hrest := ih hone.ne_empty fun n hn => h n (List.mem_cons_of_mem name hn)
    change GoesOn base (joinPaths (joinPath base name) names) (name :: names)
    refine ⟨hrest.ne_empty, hrest.fromRoot.trans hone.fromRoot, ?_, fun _ => ?_⟩
    · rw [hrest.segments, hone.segments, List.append_assoc]
      rfl
    · cases names with
      | nil => exact hone.endsInSlash (List.cons_ne_nil _ _)
      | cons n ns => exact hrest.endsInSlash (List.cons_ne_nil _ _)

theorem GoesOn.steps {base path : String} {names : List String} (h : GoesOn base path names)
    (hne : names ≠ []) : steps path = Files.segments base ++ names := by
  unfold Files.steps
  rw [h.endsInSlash hne, h.segments]
  exact List.append_nil _

namespace Tree

variable {root : Node} {here : List String} {t : Tree}

/-! ## Steps -/

/-- What a step leads to: only from a directory, and by a name only to what is there. -/
theorem step?_eq_some_iff {step : String} {next : List String} :
    step? root here step = some next ↔ (root.get? here).any Node.isDirectory = true ∧
      (step = "." ∧ next = here ∨ step = ".." ∧ next = here.dropLast ∨
        isName step = true ∧ (root.get? (here ++ [step])).isSome ∧ next = here ++ [step]) := by
  have hname : isName step = true → step ≠ "." ∧ step ≠ ".." := fun h => by
    unfold isName at h
    simp only [Bool.and_eq_true, bne_iff_ne] at h
    exact h.1.1
  unfold step?
  rw [Node.get?_append]
  cases root.get? here with
  | none => simp
  | some n =>
    cases n with
    | file text => simp [Node.isDirectory]
    | binary => simp [Node.isDirectory]
    | directory entries =>
      have hthere : ((Node.directory entries).get? [step]).isSome =
          (entries.lookup step).isSome :=
        congrArg Option.isSome (Option.bind_fun_some _)
      simp only [Option.any_some, Option.bind_some, hthere, Node.isDirectory, true_and]
      by_cases hdot : step = "."
      · simp [hdot, isName, eq_comm (b := next)]
      · by_cases hdots : step = ".."
        · simp [hdots, isName, eq_comm (b := next)]
        · simp [hdot, hdots, eq_comm (b := next), and_assoc]

theorem isDirectory_of_step? {step : String} {next : List String}
    (h : step? root here step = some next) : (root.get? here).any Node.isDirectory = true :=
  (step?_eq_some_iff.1 h).1

theorem step?_of_isName {step : String} (h : isName step = true)
    (hthere : (root.get? (here ++ [step])).isSome) :
    step? root here step = some (here ++ [step]) := by
  refine step?_eq_some_iff.2 ⟨?_, .inr (.inr ⟨h, hthere, rfl⟩)⟩
  rw [Node.get?_append] at hthere
  obtain ⟨n, hn⟩ := Option.isSome_iff_exists.1 hthere
  obtain ⟨m, hm, hmn⟩ := Option.bind_eq_some_iff.1 hn
  obtain ⟨entries, rfl⟩ := Node.exists_directory_of_get?_cons hmn
  rw [hm]
  rfl

theorem step?_of_missing {step : String} (h : isName step = true)
    (hthere : root.get? (here ++ [step]) = none) : step? root here step = none := by
  refine Option.eq_none_iff_forall_ne_some.2 fun next hnext => ?_
  unfold isName at h
  simp only [Bool.and_eq_true, bne_iff_ne] at h
  obtain ⟨-, ⟨hdot, -⟩ | ⟨hdots, -⟩ | ⟨-, hsome, -⟩⟩ := step?_eq_some_iff.1 hnext
  · exact h.1.1.1 hdot
  · exact h.1.1.2 hdots
  · rw [hthere] at hsome
    cases hsome

theorem walk_names {names : List String} (h : ∀ name ∈ names, IsEntryName name)
    (hthere : (root.get? (here ++ names)).isSome) :
    names.foldlM (step? root) here = some (here ++ names) := by
  induction names generalizing here with
  | nil => exact congrArg some (List.append_nil here).symm
  | cons name names ih =>
    have hone : (root.get? (here ++ [name])).isSome := by
      rw [List.append_cons, Node.get?_append] at hthere
      exact Option.isSome_of_isSome_bind hthere
    rw [List.append_cons] at hthere
    rw [List.foldlM_cons, step?_of_isName (h name List.mem_cons_self).isName hone,
      List.append_cons here name names]
    exact ih (fun n hn => h n (List.mem_cons_of_mem name hn)) hthere

theorem step?_of_grows {root' : Node} (h : root.Grows root') {step : String} {next : List String}
    (hs : step? root here step = some next) : step? root' here step = some next := by
  obtain ⟨hdir, hnext⟩ := step?_eq_some_iff.1 hs
  refine step?_eq_some_iff.2 ⟨h.directory here hdir, ?_⟩
  exact hnext.imp_right (.imp_right fun ⟨hname, hthere, he⟩ => ⟨hname, h.there _ hthere, he⟩)

theorem walk_of_grows {root' : Node} (h : root.Grows root') {steps : List String}
    {place : List String} (hs : steps.foldlM (step? root) here = some place) :
    steps.foldlM (step? root') here = some place := by
  induction steps generalizing here with
  | nil => exact hs
  | cons step steps ih =>
    rw [List.foldlM_cons] at hs ⊢
    obtain ⟨next, hnext, hrest⟩ := Option.bind_eq_some_iff.1 hs
    rw [step?_of_grows h hnext]
    exact ih hrest

/-! ## What is below a directory -/

/-- The place of what a path leads to.  A slash at the end of the path makes no difference. -/
theorem exists_walk_of_find? {base : String} {v : Node} (h : t.find? base = some v) :
    base ≠ "" ∧ ∃ place, (segments base).foldlM (step? t.root) (t.start base) = some place ∧
      t.root.get? place = some v := by
  obtain ⟨place, hplace, hv⟩ := Option.bind_eq_some_iff.1 h
  unfold place? at hplace
  split at hplace
  · cases hplace
  · next hne =>
    refine ⟨fun he => hne (beq_iff_eq.2 he), ?_⟩
    unfold Files.steps at hplace
    rw [List.foldlM_append] at hplace
    obtain ⟨before, hbefore, hlast⟩ := Option.bind_eq_some_iff.1 hplace
    refine ⟨before, hbefore, ?_⟩
    split at hlast
    · rw [List.foldlM_cons] at hlast
      obtain ⟨next, hnext, he⟩ := Option.bind_eq_some_iff.1 hlast
      obtain ⟨-, ⟨-, rfl⟩ | ⟨hdots, -⟩ | ⟨hname, -⟩⟩ := step?_eq_some_iff.1 hnext
      · cases he; exact hv
      · exact absurd hdots (by decide)
      · exact absurd hname (by decide)
    · cases hlast; exact hv

theorem find?_of_walk {base : String} (hbase : base ≠ "") {place : List String}
    (hwalk : (segments base).foldlM (step? t.root) (t.start base) = some place) {v : Node}
    (hv : t.root.get? place = some v) (hdir : v.isDirectory = true) : t.find? base = some v := by
  unfold find? place?
  rw [if_neg (by rw [beq_iff_eq]; exact hbase)]
  unfold Files.steps
  rw [List.foldlM_append, hwalk]
  refine Option.bind_eq_some_iff.2 ⟨place, ?_, hv⟩
  split
  · have hstay : step? t.root place "." = some place :=
      step?_eq_some_iff.2 ⟨by rw [hv]; exact hdir, .inl ⟨rfl, rfl⟩⟩
    change (do let next ← step? t.root place "."; [].foldlM (step? t.root) next) = some place
    rw [hstay]
    rfl
  · rfl

theorem start_eq {base path : String} (h : fromRoot path = fromRoot base) :
    t.start path = t.start base := by
  unfold start
  rw [h]

/-- **A path that goes on from that of a directory leads to what is there.** -/
theorem find?_below {base : String} {v n : Node} (h : t.find? base = some v)
    {names : List String} (hnames : ∀ name ∈ names, IsEntryName name) (hne : names ≠ [])
    (hn : v.get? names = some n) : t.find? (joinPaths base names) = some n := by
  obtain ⟨hbase, place, hwalk, hv⟩ := exists_walk_of_find? h
  have hpath := goesOn_joinPaths hbase fun n hn => (hnames n hn).isStep
  have hget : t.root.get? (place ++ names) = some n := by
    rw [Node.get?_append, hv]
    exact hn
  unfold find? place?
  rw [if_neg (by rw [beq_iff_eq]; exact hpath.ne_empty), hpath.steps hne,
    start_eq hpath.fromRoot, List.foldlM_append, hwalk]
  change (names.foldlM (step? t.root) place).bind _ = _
  rw [walk_names hnames (Option.isSome_of_eq_some hget)]
  exact hget

theorem enter?_of_step? {step : String} {next : List String}
    (h : step? root here step = some next)
    (hdir : (root.get? next).any Node.isDirectory = true) :
    enter? (root, here) step = some (root, next) := by
  unfold enter?
  dsimp only
  rw [h]
  exact if_pos hdir

theorem enter_of_walk {steps place : List String}
    (h : steps.foldlM (step? root) here = some place)
    (hdir : (root.get? place).any Node.isDirectory = true) :
    steps.foldlM enter? (root, here) = some (root, place) := by
  induction steps generalizing here with
  | nil => cases h; rfl
  | cons step steps ih =>
    rw [List.foldlM_cons] at h ⊢
    obtain ⟨next, hnext, hrest⟩ := Option.bind_eq_some_iff.1 h
    have hnextdir : (root.get? next).any Node.isDirectory = true := by
      cases steps with
      | nil => cases hrest; exact hdir
      | cons s ss =>
        rw [List.foldlM_cons] at hrest
        obtain ⟨_, hs, -⟩ := Option.bind_eq_some_iff.1 hrest
        exact isDirectory_of_step? hs
    rw [enter?_of_step? hnext hnextdir]
    exact ih hrest

/-- A step down by a name makes a directory there, if nothing is there yet. -/
theorem enter_name {name : String} (h : isName name = true)
    (hdir : (root.get? here).any Node.isDirectory = true)
    (hfile : (root.get? (here ++ [name])).all Node.isDirectory = true) :
    ∃ root', enter? (root, here) name = some (root', here ++ [name]) ∧
      root.Made root' (here ++ [name]) := by
  cases hthere : root.get? (here ++ [name]) with
  | some n =>
    have hn : (root.get? (here ++ [name])).any Node.isDirectory = true := by
      rw [hthere] at hfile ⊢
      exact hfile
    exact ⟨root, enter?_of_step? (step?_of_isName h (Option.isSome_of_any hn)) hn, .refl hn⟩
  | none =>
    refine ⟨root.put (.directory []) (here ++ [name]), ?_, Node.made_put hthere⟩
    unfold enter?
    dsimp only
    rw [step?_of_missing h hthere]
    exact if_pos (by rw [h, hdir]; rfl)

/-- **The walk down some names makes the directories that are missing.** -/
theorem enter_names {names : List String} (h : ∀ name ∈ names, IsEntryName name)
    (hdir : (root.get? here).any Node.isDirectory = true)
    (hfile : ∀ pre, pre <+: names → (root.get? (here ++ pre)).all Node.isDirectory = true) :
    ∃ root', names.foldlM enter? (root, here) = some (root', here ++ names) ∧
      root.Made root' (here ++ names) := by
  induction names generalizing root here with
  | nil =>
    rw [List.append_nil]
    exact ⟨root, rfl, .refl hdir⟩
  | cons name names ih =>
    obtain ⟨root₁, hone, hmade⟩ := enter_name (h name List.mem_cons_self).isName hdir
      (hfile [name] (List.prefix_append [name] names))
    have hway : ∀ pre, pre <+: names →
        (root₁.get? (here ++ [name] ++ pre)).all Node.isDirectory = true := by
      intro pre hpre
      cases pre with
      | nil =>
        rw [List.append_nil]
        exact Node.all_of_any hmade.isDirectory
      | cons x xs =>
        rw [hmade.below _ (List.cons_ne_nil x xs), ← List.append_cons]
        exact hfile _ ((List.prefix_cons_inj name).2 hpre)
    obtain ⟨root₂, hrest, hmade'⟩ :=
      ih (fun n hn => h n (List.mem_cons_of_mem name hn)) hmade.isDirectory hway
    rw [List.foldlM_cons, hone, List.append_cons here name names]
    exact ⟨root₂, hrest, hmade.trans hmade'⟩

/-- A text is put in the directory that the walk of its path has entered. -/
theorem write?_of_enter {path name : String} (before : List String) {dir : List String}
    {root' : Node} (hsteps : steps path = before ++ [name]) (hname : isName name = true)
    (henter : before.foldlM enter? (t.root, t.start path) = some (root', dir))
    (hdir : (root'.get? (dir ++ [name])).any Node.isDirectory = false) (text : String) :
    t.write? path text = some { t with root := root'.put (.file text) (dir ++ [name]) } := by
  unfold write?
  rw [hsteps, List.getLast?_concat, List.dropLast_concat, henter]
  dsimp only [Option.bind_eq_bind, Option.bind_some]
  rw [if_neg (by rw [hname]; exact Bool.false_ne_true),
    if_neg (by rw [hdir]; exact Bool.false_ne_true)]
  rfl

/-- **A file that is written below a directory is put at its place there.** -/
theorem write?_below {base : String} {v : Node} (h : t.find? base = some v)
    {names : List String} (hnames : ∀ name ∈ names, IsEntryName name) (hne : names ≠ [])
    (hdir : (v.get? names).any Node.isDirectory = false)
    (hfile : ∀ pre, pre <+: names → pre ≠ names → (v.get? pre).all Node.isDirectory = true)
    (text : String) :
    ∃ t', t.write? (joinPaths base names) text = some t' ∧
      t'.find? base = some (v.put (.file text) names) := by
  obtain ⟨hbase, place, hwalk, hv⟩ := exists_walk_of_find? h
  have hpath := goesOn_joinPaths hbase fun n hn => (hnames n hn).isStep
  have hbelow : ∀ rest, t.root.get? (place ++ rest) = v.get? rest := fun rest => by
    rw [Node.get?_append, hv]
    rfl
  obtain ⟨dirs, name, rfl⟩ := (List.eq_nil_or_concat' names).resolve_left hne
  have hway : ∀ pre, pre <+: dirs → (v.get? pre).all Node.isDirectory = true := by
    refine fun pre hp => hfile pre (hp.trans (List.prefix_append _ _)) fun he => ?_
    have hlength := hp.length_le
    rw [he, List.length_append, List.length_singleton] at hlength
    omega
  have hvdir : (t.root.get? place).any Node.isDirectory = true := by
    rw [hv]
    exact hway [] List.nil_prefix
  obtain ⟨root', henter, hmade⟩ := enter_names
    (fun n hn => hnames n (List.mem_append_left _ hn)) hvdir
    fun pre hp => by rw [hbelow]; exact hway pre hp
  have hroot : root'.get? (place ++ dirs ++ [name]) = v.get? (dirs ++ [name]) := by
    rw [hmade.below _ (List.cons_ne_nil _ _), List.append_assoc, hbelow]
  have hput : root'.put (.file text) (place ++ dirs ++ [name]) =
      t.root.put (.file text) (place ++ (dirs ++ [name])) := by
    rw [hmade.put, List.append_assoc]
  refine ⟨_, write?_of_enter (segments base ++ dirs) ?_
    (hnames name (List.mem_append_right dirs (List.mem_singleton_self name))).isName ?_
    (by rw [hroot]; exact hdir) text, ?_⟩
  · rw [hpath.steps hne, List.append_assoc]
  · rw [start_eq hpath.fromRoot, List.foldlM_append, enter_of_walk hwalk hvdir]
    exact henter
  · rw [hput]
    have hgrows : t.root.Grows (t.root.put (.file text) (place ++ (dirs ++ [name]))) :=
      Node.grows_put (by rw [hbelow]; exact hdir) _
    refine find?_of_walk hbase (walk_of_grows hgrows hwalk) (Node.get?_put_append hv _) ?_
    cases dirs <;> rfl

end Tree

end IdlDocs.Files
