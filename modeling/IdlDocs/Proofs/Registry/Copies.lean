import IdlDocs.Proofs.Files.Texts
import IdlDocs.Proofs.Registry.Loading
import IdlDocs.Proofs.Text.Lines

/-!
# Copies in a directory

Texts may be held in memory, under the ends of locations, or as files below a directory.  In memory
the longest key is taken that a location ends with after a slash; in a directory the longest end
of its path that names a file.

* `isEnd_iff_suffix`: **a text ends with a key after a slash where its parts end with those of the
  key.**
* `IsNamePath`, `IsLocation`: paths of names, and the locations that end with one.
* `IsLocation.isEnd_iff`: the keys that a location ends with are the ends of its path.
* `longest_of_lookup?`: in memory the longest of them is taken.
* `readFirst_ends`: in a directory the first end is taken that names a file.
* `directory_answers_as_memory`: **both answer alike.**
-/

namespace IdlDocs

open Files Source

/-! ## Ends of locations -/

def IsEnd (location key : String) : Prop :=
  key = location ∨ '/' :: key.toList <:+ location.toList

theorem intercalate_append_of_ne_nil (sep : Char) {front back : List (List Char)}
    (hfront : front ≠ []) (hback : back ≠ []) :
    [sep].intercalate (front ++ back) =
      [sep].intercalate front ++ sep :: [sep].intercalate back := by
  induction front with
  | nil => exact absurd rfl hfront
  | cons p front ih =>
    cases front with
    | nil =>
      obtain ⟨q, back, rfl⟩ := List.exists_cons_of_ne_nil hback
      simp [List.intercalate_cons_cons]
    | cons q front =>
      rw [List.cons_append, List.cons_append, List.intercalate_cons_cons, ← List.cons_append,
        ih (List.cons_ne_nil _ _), List.intercalate_cons_cons]
      simp

/-- **A text ends with a key, as a whole or after a slash, where its parts end with those of the
key.** -/
theorem isEnd_iff_suffix {location key : String} :
    IsEnd location key ↔ slashParts key <:+ slashParts location := by
  constructor
  · rintro (rfl | ⟨front, hfront⟩)
    · exact List.suffix_refl _
    · refine ⟨slashParts (String.ofList front), ?_⟩
      rw [← slashParts_append]
      refine congrArg slashParts (String.toList_inj.1 ?_)
      simp [← hfront]
  · rintro ⟨front, hfront⟩
    by_cases hnil : front = []
    · rw [hnil, List.nil_append] at hfront
      exact .inl (slashParts_injective hfront)
    · refine .inr ⟨['/'].intercalate (front.map String.toList), ?_⟩
      have hparts : Text.parts '/' location.toList =
          front.map String.toList ++ Text.parts '/' key.toList := by
        have h := congrArg (List.map String.toList) hfront
        simpa [slashParts, Function.comp_def] using h.symm
      rw [← Text.intercalate_parts '/' location.toList, hparts, intercalate_append_of_ne_nil,
        Text.intercalate_parts]
      · simpa using hnil
      · exact Text.parts_ne_nil '/' key.toList

theorem exists_front_of_suffix {location key : String}
    (h : '/' :: key.toList <:+ location.toList) : ∃ front, location = front ++ "/" ++ key := by
  obtain ⟨front, hfront⟩ := h
  refine ⟨String.ofList front, String.toList_inj.1 ?_⟩
  simp [← hfront]

/-- What ends with a key after a slash is longer, in bytes. -/
theorem utf8ByteSize_lt_of_suffix {location key : String}
    (h : '/' :: key.toList <:+ location.toList) : key.utf8ByteSize < location.utf8ByteSize := by
  obtain ⟨front, rfl⟩ := exists_front_of_suffix h
  have hslash : "/".utf8ByteSize = 1 := rfl
  rw [String.utf8ByteSize_append, String.utf8ByteSize_append]
  omega

theorem IsEnd.utf8ByteSize_le {location key : String} (h : IsEnd location key) :
    key.utf8ByteSize ≤ location.utf8ByteSize := by
  rcases h with rfl | h
  · exact Nat.le_refl _
  · exact (utf8ByteSize_lt_of_suffix h).le

theorem IsEnd.eq_of_utf8ByteSize_le {location key : String} (h : IsEnd location key)
    (hle : location.utf8ByteSize ≤ key.utf8ByteSize) : key = location := by
  rcases h with rfl | h
  · rfl
  · have hlt := utf8ByteSize_lt_of_suffix h
    omega

/-! ## Locations -/

/-- A path of names: none of its parts between the slashes is empty or stands for a directory. -/
def IsNamePath (path : String) : Prop :=
  ∀ name ∈ slashParts path, name ≠ "" ∧ name ≠ "." ∧ name ≠ ".."

/-- A location that stands for texts by the ends of a path of names: this path alone, or with a
scheme and a host in front, where no key is the host with the whole path. -/
inductive IsLocation (texts : List (String × String)) : String → String → Prop
  | path {path : String} (hpath : IsNamePath path) : IsLocation texts path path
  | behindHost {scheme host path : String} (hscheme : ¬"://".toList <:+: scheme.toList)
      (hhost : '/' ∉ host.toList) (hpath : IsNamePath path)
      (hkey : ∀ text, (host ++ "/" ++ path, text) ∉ texts) :
      IsLocation texts (scheme ++ "://" ++ host ++ "/" ++ path) path

theorem slashParts_of_notMem {name : String} (h : '/' ∉ name.toList) :
    slashParts name = [name] := by
  unfold slashParts
  rw [Text.parts_of_notMem h, List.map_singleton, String.ofList_toList]

theorem slashParts_behindHost {scheme host path : String} (hhost : '/' ∉ host.toList) :
    slashParts (scheme ++ "://" ++ host ++ "/" ++ path) =
      slashParts (scheme ++ ":") ++ "" :: host :: slashParts path := by
  have hsplit : scheme ++ "://" ++ host ++ "/" ++ path =
      scheme ++ ":" ++ "/" ++ ("" ++ "/" ++ (host ++ "/" ++ path)) := by
    refine String.toList_inj.1 ?_
    simp
  rw [hsplit, slashParts_append, slashParts_append, slashParts_append, slashParts_of_notMem hhost]
  rfl

/-- No scheme stands in front of a path of names. -/
theorem IsNamePath.not_infix {path : String} (h : IsNamePath path) :
    ¬"://".toList <:+: path.toList := by
  rintro ⟨a, b, hab⟩
  have hsplit : path = String.ofList a ++ ":" ++ "/" ++ ("" ++ "/" ++ String.ofList b) := by
    refine String.toList_inj.1 ?_
    simp [← hab]
  have hmem : "" ∈ slashParts path := by
    rw [hsplit, slashParts_append, slashParts_append]
    simp [slashParts_of_notMem]
  exact (h "" hmem).1 rfl

/-- **The keys that a location ends with are the ends of its path.** -/
theorem IsLocation.isEnd_iff {texts : List (String × String)} {location path : String}
    (h : IsLocation texts location path) {d : String × String} (hd : d ∈ texts)
    (hkey : ∀ name ∈ slashParts d.1, name ≠ "") :
    IsEnd location d.1 ↔ slashParts d.1 <:+ slashParts path := by
  rw [isEnd_iff_suffix]
  cases h with
  | path => rfl
  | @behindHost scheme host path hscheme hhost hpath hnokey =>
    rw [slashParts_behindHost hhost]
    constructor
    · intro hsuffix
      -- The parts of the key do not reach over the empty part between the scheme and the host.
      have hempty : "" ∉ slashParts d.1 := fun hm => hkey "" hm rfl
      rcases List.suffix_or_suffix_of_suffix hsuffix (List.suffix_append _ _) with hs | hs
      · rcases List.suffix_cons_iff.1 hs with he | hs
        · exact absurd (he ▸ List.mem_cons_self) hempty
        · rcases List.suffix_cons_iff.1 hs with he | hs
          · have hkey : d.1 = host ++ "/" ++ path := by
              refine slashParts_injective ?_
              rw [he, slashParts_append, slashParts_of_notMem hhost]
              rfl
            exact absurd (hkey ▸ hd) (hnokey d.2)
          · exact hs
      · exact absurd (hs.subset List.mem_cons_self) hempty
    · intro hsuffix
      have hcons := (hsuffix.trans (List.suffix_cons host _)).trans (List.suffix_cons "" _)
      exact hcons.trans (List.suffix_append _ _)

/-! ## In memory -/

variable {texts : List (String × String)} {location : String}

theorem utf8ByteSize_le_foldl_longerKey (ds : List (String × String)) (d : String × String) :
    ∀ e ∈ d :: ds, e.1.utf8ByteSize ≤ (ds.foldl longerKey d).1.utf8ByteSize := by
  induction ds generalizing d with
  | nil => simp
  | cons a ds ih =>
    intro e he
    rw [List.foldl_cons]
    have hlonger : d.1.utf8ByteSize ≤ (longerKey d a).1.utf8ByteSize ∧
        a.1.utf8ByteSize ≤ (longerKey d a).1.utf8ByteSize := by
      unfold longerKey
      split <;> omega
    have hfold := ih (longerKey d a) _ List.mem_cons_self
    rcases List.mem_cons.1 he with rfl | he
    · omega
    · rcases List.mem_cons.1 he with rfl | he
      · omega
      · exact ih (longerKey d a) e (List.mem_cons_of_mem _ he)

/-- **The text that memory has for a location is that of the longest key** which is an end of
it. -/
theorem longest_of_lookup? {text : String} (h : lookup? texts location = some text) :
    ∃ d ∈ texts, d.2 = text ∧ IsEnd location d.1 ∧
      ∀ e ∈ texts, IsEnd location e.1 → e.1.utf8ByteSize ≤ d.1.utf8ByteSize := by
  unfold lookup? at h
  cases hl : texts.lookup location with
  | some t =>
    rw [hl] at h
    cases h
    exact ⟨_, mem_of_lookup hl, rfl, .inl rfl, fun e _ he => he.utf8ByteSize_le⟩
  | none =>
    rw [hl] at h
    obtain ⟨d, hd, rfl⟩ := Option.map_eq_some_iff.1 h
    unfold longestEnd? at hd
    cases hf : texts.filter fun d => ('/' :: d.1.toList).isSuffixOf location.toList with
    | nil => rw [hf] at hd; cases hd
    | cons a ds =>
      rw [hf] at hd
      cases hd
      have hmem : ds.foldl longerKey a ∈ texts.filter _ := hf ▸ foldl_longerKey_mem ds a
      rw [List.mem_filter, List.isSuffixOf_iff_suffix] at hmem
      refine ⟨_, hmem.1, rfl, .inr hmem.2, fun e he hend => ?_⟩
      rcases hend with rfl | hend
      · exact absurd (List.lookup_eq_none_iff.1 hl e he) (by simp)
      · refine utf8ByteSize_le_foldl_longerKey ds a e ?_
        rw [← hf, List.mem_filter, List.isSuffixOf_iff_suffix]
        exact ⟨he, hend⟩

/-- Memory has no text only where no key is an end of the location. -/
theorem not_isEnd_of_lookup? (h : lookup? texts location = none) :
    ∀ d ∈ texts, ¬IsEnd location d.1 := by
  intro d hd hend
  unfold lookup? at h
  cases hl : texts.lookup location with
  | some t => rw [hl] at h; cases h
  | none =>
    rw [hl, Option.map_eq_none_iff] at h
    rcases hend with rfl | hend
    · exact absurd (List.lookup_eq_none_iff.1 hl d hd) (by simp)
    · have hmem : d ∈ texts.filter fun d => ('/' :: d.1.toList).isSuffixOf location.toList := by
        rw [List.mem_filter, List.isSuffixOf_iff_suffix]
        exact ⟨hd, hend⟩
      unfold longestEnd? at h
      cases hf : texts.filter fun d => ('/' :: d.1.toList).isSuffixOf location.toList with
      | nil => rw [hf] at hmem; cases hmem
      | cons a ds => rw [hf] at h; cases h

/-! ## In a directory -/

theorem mem_ends {α : Type} {as bs : List α} : bs ∈ ends as ↔ bs ≠ [] ∧ bs <:+ as := by
  induction as with
  | nil =>
    rw [List.suffix_nil]
    simp [ends]
  | cons a as ih =>
    rw [ends, List.mem_cons, ih, List.suffix_cons_iff]
    constructor
    · rintro (rfl | ⟨hne, hs⟩)
      · exact ⟨List.cons_ne_nil _ _, .inl rfl⟩
      · exact ⟨hne, .inr hs⟩
    · rintro ⟨hne, he | hs⟩
      · exact .inl he
      · exact .inr ⟨hne, hs⟩

/-- The ends of a list stand from the longest to the shortest. -/
theorem pairwise_ends {α : Type} (as : List α) : (ends as).Pairwise fun a b => b <:+ a := by
  induction as with
  | nil => exact .nil
  | cons a as ih =>
    refine .cons (fun b hb => ?_) ih
    exact (mem_ends.1 hb).2.trans (List.suffix_cons a as)

theorem cutAt_scheme {scheme : List Char} (h : ¬[':', '/', '/'] <:+: scheme) (rest : List Char) :
    Text.cutAt [':', '/', '/'] (scheme ++ ':' :: '/' :: '/' :: rest) = some (scheme, rest) := by
  induction scheme with
  | nil => rfl
  | cons c scheme ih =>
    have hrefused : Text.dropLead? [':', '/', '/']
        (c :: (scheme ++ ':' :: '/' :: '/' :: rest)) = none := by
      rw [Option.eq_none_iff_forall_ne_some]
      intro r hr
      have he := Text.eq_append_of_dropLead? hr
      -- The mark stands within the scheme, as its own characters differ.
      rcases scheme with _ | ⟨d, _ | ⟨e, scheme⟩⟩
      · simp at he
      · simp at he
      · simp only [List.cons_append, List.cons.injEq, List.nil_append] at he
        obtain ⟨rfl, rfl, rfl, -⟩ := he
        exact h ⟨[], scheme, rfl⟩
    rw [List.cons_append, Text.cutAt, hrefused]
    dsimp only
    rw [ih fun hi => h (hi.trans (List.suffix_cons c scheme).isInfix)]
    rfl

theorem cutAt_of_notMem {c : Char} {front : List Char} (h : c ∉ front) (rest : List Char) :
    Text.cutAt [c] (front ++ c :: rest) = some (front, rest) := by
  induction front with
  | nil => simp [Text.cutAt, Text.dropLead?]
  | cons d front ih =>
    rw [List.mem_cons, not_or] at h
    rw [List.cons_append, Text.cutAt, Text.dropLead?, if_neg h.1]
    dsimp only
    rw [ih h.2]
    rfl

theorem cutAt_eq_none {mark s : List Char} (h : ¬mark <:+: s) : Text.cutAt mark s = none := by
  rw [Option.eq_none_iff_forall_ne_some]
  rintro ⟨a, b⟩ hab
  exact h ⟨a, b, (Text.eq_of_cutAt hab).symm⟩

/-- The path of a location is what stands behind its scheme and its host. -/
theorem IsLocation.pathOf {path : String} (h : IsLocation texts location path) :
    pathOf location = path := by
  unfold Source.pathOf
  cases h with
  | path hpath => rw [cutAt_eq_none hpath.not_infix]
  | @behindHost scheme host path hscheme hhost =>
    have hcut : Text.cutAt "://".toList (scheme ++ "://" ++ host ++ "/" ++ path).toList =
        some (scheme.toList, host.toList ++ '/' :: path.toList) := by
      have h := cutAt_scheme hscheme (host.toList ++ '/' :: path.toList)
      simpa using h
    rw [hcut]
    dsimp only
    rw [cutAt_of_notMem hhost]
    exact String.ofList_toList

theorem IsLocation.isNamePath {path : String} (h : IsLocation texts location path) :
    IsNamePath path := by
  cases h with
  | path hpath => exact hpath
  | behindHost _ _ hpath => exact hpath

/-- The paths below a root that a location stands for are those of the ends of its path. -/
theorem IsLocation.candidates {path : String} (h : IsLocation texts location path)
    (root : String) :
    candidates root location = (ends (slashParts path)).map (joinPaths root) := by
  have hsegments : segments path = slashParts path := by
    unfold segments
    rw [List.filter_eq_self]
    exact fun name hname => bne_iff_ne.2 (h.isNamePath name hname).1
  unfold Source.candidates
  rw [h.pathOf, hsegments]

/-- **A directory has the text of the first path that names a file.** -/
theorem readFirst_ends {files : Tree} {root : String} {node : Node}
    {places : List (List String)}
    (hread : ∀ place ∈ places, files.read (joinPaths root place) =
      (node.textAt? place).elim (.error .missing) .ok) :
    readFirst files root location (places.map (joinPaths root)) =
      (places.findSome? node.textAt?).elim (.error ⟨location, .notUnder root⟩) .ok := by
  induction places with
  | nil => rfl
  | cons place places ih =>
    rw [List.map_cons, readFirst, hread place List.mem_cons_self, List.findSome?_cons]
    cases node.textAt? place with
    | some text => rfl
    | none => exact ih fun p hp => hread p (List.mem_cons_of_mem place hp)

theorem IsNamePath.isStep {path name : String} (h : IsNamePath path)
    (hname : name ∈ slashParts path) : IsStep name := by
  refine ⟨(h name hname).1, ?_⟩
  obtain ⟨p, hp, rfl⟩ := List.mem_map.1 hname
  rw [String.toList_ofList]
  exact Text.notMem_of_mem_parts hp

/-- The answer of a directory that holds texts, where no path leads to a directory. -/
theorem IsLocation.answer_directory {files : Tree} {root path : String} {node : Node}
    (h : IsLocation texts location path) (hfind : files.find? root = some node)
    (hnode : node.Holds texts)
    (hdir : ∀ p ∈ Source.candidates root location, files.isDirectory p = false) :
    (directory files root).answer location =
      ((ends (slashParts path)).findSome? node.textAt?).elim
        (.error ⟨location, .notUnder root⟩) .ok := by
  rw [h.candidates] at hdir
  rw [directory_answer, h.candidates]
  refine readFirst_ends fun place hplace => ?_
  obtain ⟨hne, hsuffix⟩ := mem_ends.1 hplace
  have hnames := fun name hn => h.isNamePath name (hsuffix.subset hn)
  exact hnode.read hfind (fun name hn => h.isNamePath.isStep (hsuffix.subset hn))
    (fun name hn => (hnames name hn).2) hne (hdir _ (List.mem_map_of_mem hplace))

/-! ## Both alike -/

theorem Files.Node.Holds.textAt? {node : Node} (hnode : node.Holds texts) {d : String × String}
    (hd : d ∈ texts) : node.textAt? (slashParts d.1) = some d.2 :=
  Node.textAt?_eq_some_iff.2 ((hnode.file_iff d.1 d.2).1 hd)

section

variable {path : String} {node : Node} (h : IsLocation texts location path)
  (hnode : node.Holds texts)

include h hnode

theorem IsLocation.isEnd_iff_mem_ends {d : String × String} (hd : d ∈ texts) :
    IsEnd location d.1 ↔ slashParts d.1 ∈ ends (slashParts path) := by
  have hne : slashParts d.1 ≠ [] := fun hnil =>
    Text.parts_ne_nil '/' d.1.toList (List.map_eq_nil_iff.1 hnil)
  rw [h.isEnd_iff hd fun name hn => (hnode.names d hd name hn).ne_empty, mem_ends,
    and_iff_right hne]

/-- A file at an end of the path is a text whose key is an end of the location. -/
theorem IsLocation.exists_key {place : List String} (hplace : place ∈ ends (slashParts path))
    {text : String} (htext : node.textAt? place = some text) :
    ∃ key, slashParts key = place ∧ (key, text) ∈ texts ∧ IsEnd location key := by
  obtain ⟨hne, hsuffix⟩ := mem_ends.1 hplace
  have hparts := slashParts_intercalate hne fun n hn =>
    (h.isNamePath.isStep (hsuffix.subset hn)).noSlash
  have hmem : ("/".intercalate place, text) ∈ texts := by
    rw [hnode.file_iff, hparts, ← Node.textAt?_eq_some_iff]
    exact htext
  refine ⟨_, hparts, hmem, (h.isEnd_iff_mem_ends hnode hmem).2 ?_⟩
  rw [hparts]
  exact hplace

/-- The first end of the path that names a file is the longest key. -/
theorem IsLocation.findSome?_of_longest {d : String × String} (hd : d ∈ texts)
    (hend : IsEnd location d.1)
    (hlongest : ∀ e ∈ texts, IsEnd location e.1 → e.1.utf8ByteSize ≤ d.1.utf8ByteSize) :
    (ends (slashParts path)).findSome? node.textAt? = some d.2 := by
  have hthere := hnode.textAt? hd
  have hwhere := (h.isEnd_iff_mem_ends hnode hd).1 hend
  cases hf : (ends (slashParts path)).findSome? node.textAt? with
  | none =>
    have hnone := List.findSome?_eq_none_iff.1 hf _ hwhere
    rw [hthere] at hnone
    cases hnone
  | some text =>
    obtain ⟨before, place, after, hsplit, htext, hbefore⟩ := List.findSome?_eq_some_iff.1 hf
    have hplace : place ∈ ends (slashParts path) := by
      rw [hsplit]
      exact List.mem_append_right before List.mem_cons_self
    obtain ⟨key, rfl, hmem, hkeyend⟩ := h.exists_key hnode hplace htext
    have hpairwise := pairwise_ends (slashParts path)
    rw [hsplit] at hwhere hpairwise
    -- The longest key is not among the ends in front, and the ends behind are shorter.
    have hdkey : IsEnd key d.1 := by
      rcases List.mem_append.1 hwhere with hb | hrest
      · have hnone := hbefore _ hb
        rw [hthere] at hnone
        cases hnone
      · rw [isEnd_iff_suffix]
        rcases List.mem_cons.1 hrest with he | ha
        · rw [he]
        · have hcons := (List.pairwise_append.1 hpairwise).2.1
          exact (List.pairwise_cons.1 hcons).1 _ ha
    have he : d.1 = key := hdkey.eq_of_utf8ByteSize_le (hlongest _ hmem hkeyend)
    rw [← htext, ← he, hthere]

/-- Texts in memory and in a directory have the same longest end of a location. -/
theorem IsLocation.lookup?_eq :
    lookup? texts location = (ends (slashParts path)).findSome? node.textAt? := by
  cases hl : lookup? texts location with
  | none =>
    have hnone := not_isEnd_of_lookup? hl
    refine (List.findSome?_eq_none_iff.2 fun place hplace => ?_).symm
    rw [Option.eq_none_iff_forall_ne_some]
    intro text htext
    obtain ⟨key, -, hmem, hkeyend⟩ := h.exists_key hnode hplace htext
    exact hnone _ hmem hkeyend
  | some text =>
    obtain ⟨d, hd, rfl, hend, hlongest⟩ := longest_of_lookup? hl
    exact (h.findSome?_of_longest hnode hd hend hlongest).symm

end

/-- **A directory answers as memory does.**  Where the files below a directory are the texts that
memory holds under their paths, a location that ends with a path of names has the same text from
both, or is not found by both.  The one condition on the directory is that no end of the path
names a directory, which can not be read. -/
theorem directory_answers_as_memory {files : Tree} {root path : String} {node : Node}
    (hfind : files.find? root = some node) (hnode : node.Holds texts)
    (hlocation : IsLocation texts location path)
    (hdir : ∀ p ∈ candidates root location, files.isDirectory p = false)
    (name : String) (c : Config) (r : Registry) :
    (∃ text,
      outcomeAt ⟨.memory texts, c⟩ r (Registry.fetch name location) = .ok text ∧
      outcomeAt ⟨.directory files root, c⟩ r (Registry.fetch name location) = .ok text) ∨
    (outcomeAt ⟨.memory texts, c⟩ r (Registry.fetch name location) =
        .error (.fetch name location .noDocument) ∧
      outcomeAt ⟨.directory files root, c⟩ r (Registry.fetch name location) =
        .error (.fetch name location (.notUnder root))) := by
  rw [outcomeAt_fetch, outcomeAt_fetch]
  unfold Library.fetched
  dsimp only
  rw [hlocation.answer_directory hfind hnode hdir, ← hlocation.lookup?_eq hnode]
  unfold memory
  dsimp only
  cases lookup? texts location with
  | some text => exact .inl ⟨text, rfl, rfl⟩
  | none => exact .inr ⟨rfl, rfl⟩

def copiedTexts : List (String × String) := [("A.json", "short"), ("parsed/A.json", "long")]

def copiedFiles : Tree := { root := .directory [("copy", .ofTexts copiedTexts)] }

/-- Both have the text with the longer key for a location outside. -/
theorem directory_answers_as_memory_outside :
    copiedFiles.find? "copy" = some (.ofTexts copiedTexts) ∧
    (Node.ofTexts copiedTexts).Holds copiedTexts ∧
    IsLocation copiedTexts "https://host/ed/parsed/A.json" "ed/parsed/A.json" ∧
    (∀ p ∈ candidates "copy" "https://host/ed/parsed/A.json",
      copiedFiles.isDirectory p = false) ∧
    outcomeAt ⟨.memory copiedTexts, {}⟩ {}
      (Registry.fetch "A" "https://host/ed/parsed/A.json") = .ok "long" ∧
    outcomeAt ⟨.directory copiedFiles "copy", {}⟩ {}
      (Registry.fetch "A" "https://host/ed/parsed/A.json") = .ok "long" := by
  have hfind : copiedFiles.find? "copy" = some (.ofTexts copiedTexts) := rfl
  have hnode : (Node.ofTexts copiedTexts).Holds copiedTexts := by
    refine Node.holds_ofTexts (by decide +kernel) (by decide +kernel) ?_
    rintro _ ⟨d, hd, rfl⟩ _ ⟨e, he, rfl⟩
    revert d e
    decide +kernel
  have hlocation : IsLocation copiedTexts "https://host/ed/parsed/A.json" "ed/parsed/A.json" := by
    have hpath : IsNamePath "ed/parsed/A.json" := by
      unfold IsNamePath
      decide +kernel
    have hnot : "host" ++ "/" ++ "ed/parsed/A.json" ∉ copiedTexts.map Prod.fst := by
      decide +kernel
    have hkey : ∀ text, ("host" ++ "/" ++ "ed/parsed/A.json", text) ∉ copiedTexts :=
      fun text htext => hnot (List.mem_map.2 ⟨_, htext, rfl⟩)
    have he : "https" ++ "://" ++ "host" ++ "/" ++ "ed/parsed/A.json" =
        "https://host/ed/parsed/A.json" := by decide +kernel
    exact he ▸ IsLocation.behindHost (by decide +kernel) (by decide +kernel) hpath hkey
  have hdir : ∀ p ∈ candidates "copy" "https://host/ed/parsed/A.json",
      copiedFiles.isDirectory p = false := by decide +kernel
  have hmemory : outcomeAt ⟨.memory copiedTexts, {}⟩ {}
      (Registry.fetch "A" "https://host/ed/parsed/A.json") = .ok "long" := by
    rw [outcomeAt_fetch]
    decide +kernel
  refine ⟨hfind, hnode, hlocation, hdir, hmemory, ?_⟩
  rcases directory_answers_as_memory hfind hnode hlocation hdir "A" {} {} with
    ⟨text, hm, hd⟩ | ⟨hm, -⟩
  · rw [hd, ← hm, hmemory]
  · rw [hmemory] at hm
    cases hm

end IdlDocs
