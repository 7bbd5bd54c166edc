import IdlDocs.Proofs.Registry.Copies
import Mathlib.Data.List.Nodup

/-!
# Texts in memory

A location has the text under its longest end.  The ends of one location are ends of one another, so
no two of them are equally long, and it does not matter in which order the entries stand.

* `shorter_of_suffix`, `eq_or_shorter`: of two ends of a location the one is shorter than the
  other, in characters and in bytes.
* `lookup?_eq_some_iff`: **the text for a location is that under its longest end.**
* `lookup?_congr`: entries under no end of a location do not matter for it.
* `lookup?_of_nodup`: what is looked up, in any order of the entries and beside any other ones.
-/

namespace IdlDocs

open Source

/-! ## Ends of one location -/

/-- A location ends with a key after a slash. -/
def EndsWith (location key : String) : Prop := '/' :: key.toList <:+ location.toList

variable {location : String} {texts texts' : List (String × String)}

/-- An end of a key that is not the key itself is shorter, in characters and in bytes. -/
theorem shorter_of_suffix {key other : String} (h : '/' :: other.toList <:+ '/' :: key.toList)
    (hne : other ≠ key) : other.length < key.length ∧ other.utf8ByteSize < key.utf8ByteSize := by
  rcases List.suffix_cons_iff.1 h with he | h
  · rw [List.cons.injEq] at he
    exact absurd (String.toList_inj.1 he.2) hne
  · refine ⟨?_, utf8ByteSize_lt_of_suffix h⟩
    have hlength := h.length_le
    rwa [List.length_cons, String.length_toList, String.length_toList] at hlength

/-- **Of two keys that follow a slash at the end of a location the one is shorter**, unless they are
one key. -/
theorem eq_or_shorter {key other : String} (hkey : EndsWith location key)
    (hother : EndsWith location other) (hle : other.utf8ByteSize ≤ key.utf8ByteSize) :
    other = key ∨ other.length < key.length ∧ other.utf8ByteSize < key.utf8ByteSize := by
  by_cases he : other = key
  · exact .inl he
  · rcases List.suffix_or_suffix_of_suffix hother hkey with h | h
    · exact .inr (shorter_of_suffix h he)
    · have hlt := (shorter_of_suffix h (Ne.symm he)).2
      omega

/-- Ends of a location that are equally long are one key. -/
theorem IsEnd.eq_of_utf8ByteSize_eq {key other : String} (hkey : IsEnd location key)
    (hother : IsEnd location other) (hsize : other.utf8ByteSize = key.utf8ByteSize) :
    other = key := by
  rcases hkey with rfl | hkey'
  · exact hother.eq_of_utf8ByteSize_le (by omega)
  · rcases hother with rfl | hother'
    · exact (IsEnd.eq_of_utf8ByteSize_le (.inr hkey') (by omega)).symm
    · rcases eq_or_shorter hkey' hother' (by omega) with he | ⟨-, hlt⟩
      · exact he
      · omega

/-! ## Looking up -/

/-- An entry under the longest end of a location. -/
structure IsLongestEnd (texts : List (String × String)) (location : String)
    (d : String × String) : Prop where
  mem : d ∈ texts
  isEnd : IsEnd location d.1
  longest : ∀ e ∈ texts, IsEnd location e.1 → e.1.utf8ByteSize ≤ d.1.utf8ByteSize

theorem eq_of_mem_of_key_eq (hkeys : (texts.map (·.1)).Nodup) {d e : String × String}
    (hd : d ∈ texts) (he : e ∈ texts) (h : d.1 = e.1) : d = e :=
  List.inj_on_of_nodup_map hkeys hd he h

theorem IsLongestEnd.unique (hkeys : (texts.map (·.1)).Nodup) {d e : String × String}
    (hd : IsLongestEnd texts location d) (he : IsLongestEnd texts location e) : d = e := by
  have hle := hd.longest e he.mem he.isEnd
  have hge := he.longest d hd.mem hd.isEnd
  refine eq_of_mem_of_key_eq hkeys hd.mem he.mem ?_
  exact he.isEnd.eq_of_utf8ByteSize_eq hd.isEnd (by omega)

/-- **The text for a location is that under its longest end.** -/
theorem lookup?_eq_some_iff (hkeys : (texts.map (·.1)).Nodup) {text : String} :
    lookup? texts location = some text ↔ ∃ d, IsLongestEnd texts location d ∧ d.2 = text := by
  constructor
  · intro h
    obtain ⟨d, hmem, htext, hend, hlongest⟩ := longest_of_lookup? h
    exact ⟨d, ⟨hmem, hend, hlongest⟩, htext⟩
  · rintro ⟨d, hd, rfl⟩
    cases h : lookup? texts location with
    | none => exact absurd hd.isEnd (not_isEnd_of_lookup? h d hd.mem)
    | some text =>
      obtain ⟨e, hmem, rfl, hend, hlongest⟩ := longest_of_lookup? h
      rw [hd.unique hkeys ⟨hmem, hend, hlongest⟩]

theorem IsLongestEnd.congr (h : ∀ d, IsEnd location d.1 → (d ∈ texts ↔ d ∈ texts'))
    {d : String × String} (hd : IsLongestEnd texts location d) :
    IsLongestEnd texts' location d := by
  refine ⟨(h d hd.isEnd).1 hd.mem, hd.isEnd, ?_⟩
  intro e he hend
  exact hd.longest e ((h e hend).2 he) hend

/-- **Only the entries under ends of a location matter for it**, and not the order in which they
stand. -/
theorem lookup?_congr (hkeys : (texts.map (·.1)).Nodup) (hkeys' : (texts'.map (·.1)).Nodup)
    (h : ∀ d, IsEnd location d.1 → (d ∈ texts ↔ d ∈ texts')) :
    lookup? texts location = lookup? texts' location := by
  apply Option.ext
  intro text
  rw [lookup?_eq_some_iff hkeys, lookup?_eq_some_iff hkeys']
  constructor
  · rintro ⟨d, hd, htext⟩
    exact ⟨d, hd.congr h, htext⟩
  · rintro ⟨d, hd, htext⟩
    exact ⟨d, hd.congr fun e he => (h e he).symm, htext⟩

/-! ## One more text -/

theorem mem_withText_of_ne {key text : String} {d : String × String} (hne : d.1 ≠ key) :
    d ∈ withText key text texts ↔ d ∈ texts := by
  have hnew : d ≠ (key, text) := fun he => hne (by rw [he])
  simp [withText, hne, hnew]

theorem nodup_withText (hkeys : (texts.map (·.1)).Nodup) (key text : String) :
    ((withText key text texts).map (·.1)).Nodup := by
  rw [withText, List.map_cons, List.nodup_cons]
  constructor
  · simp
  · exact hkeys.sublist (List.filter_sublist.map _)

/-- **What memory has for a location does not depend on the order of its entries**, of which no two
have the same key:

* it is the text under the location itself, if there is one;
* otherwise it is the text under the longest key that the location ends with after a slash, and
  every other such key is shorter than that one, in characters and in bytes;
* there is nothing if there is no such key either;
* a further text under a key that is not the location and that the location does not end with after
  a slash makes no difference. -/
theorem lookup?_of_nodup (hkeys : (texts.map (·.1)).Nodup) (location : String) :
    (∀ texts', texts'.Perm texts → lookup? texts' location = lookup? texts location) ∧
    (∀ text, (location, text) ∈ texts → lookup? texts location = some text) ∧
    (location ∉ texts.map (·.1) → ∀ d ∈ texts, EndsWith location d.1 →
      ∃ longest ∈ texts, EndsWith location longest.1 ∧
        lookup? texts location = some longest.2 ∧
        ∀ e ∈ texts, EndsWith location e.1 → e ≠ longest →
          e.1.length < longest.1.length ∧ e.1.utf8ByteSize < longest.1.utf8ByteSize) ∧
    ((∀ d ∈ texts, d.1 ≠ location ∧ ¬EndsWith location d.1) →
      lookup? texts location = none) ∧
    ∀ key text, key ≠ location → ¬EndsWith location key →
      ∀ texts', texts'.Perm (withText key text texts) →
        lookup? texts' location = lookup? texts location := by
  refine ⟨?order, ?own, ?longest, ?missing, ?added⟩
  case order =>
    intro texts' hperm
    have hkeys' := (hperm.map (·.1)).nodup_iff.2 hkeys
    exact lookup?_congr hkeys' hkeys fun d _ => hperm.mem_iff
  case own =>
    intro text hmem
    refine (lookup?_eq_some_iff hkeys).2 ⟨_, ⟨hmem, .inl rfl, ?_⟩, rfl⟩
    intro e _ he
    exact he.utf8ByteSize_le
  case longest =>
    intro hnone d hd hend
    cases hl : lookup? texts location with
    | none => exact absurd (.inr hend) (not_isEnd_of_lookup? hl d hd)
    | some text =>
      obtain ⟨longest, hmem, rfl, hlend, hlongest⟩ := longest_of_lookup? hl
      rcases hlend with he | hlend
      · exact absurd (he ▸ List.mem_map_of_mem hmem) hnone
      · refine ⟨longest, hmem, hlend, rfl, ?_⟩
        intro e he heend hne
        rcases eq_or_shorter hlend heend (hlongest e he (.inr heend)) with hk | hlt
        · exact absurd (eq_of_mem_of_key_eq hkeys he hmem hk) hne
        · exact hlt
  case missing =>
    intro hno
    cases hl : lookup? texts location with
    | none => rfl
    | some text =>
      obtain ⟨d, hmem, -, hend, -⟩ := longest_of_lookup? hl
      rcases hend with he | hend
      · exact absurd he (hno d hmem).1
      · exact absurd hend (hno d hmem).2
  case added =>
    intro key text hne hnot texts' hperm
    have hkeys' := (hperm.map (·.1)).nodup_iff.2 (nodup_withText hkeys key text)
    refine lookup?_congr hkeys' hkeys fun d hend => hperm.mem_iff.trans (mem_withText_of_ne ?_)
    rintro rfl
    exact hend.elim hne hnot

/-- Texts under several ends of a location, and one that is under none of them. -/
def nestedTexts : List (String × String) :=
  [("", "empty"), ("é.json", "short"), ("ed/é.json", "long"), ("host/ed", "other")]

/-- The longest of several ends counts, in either order, also beside an end that follows no
slash. -/
theorem lookup?_of_nodup_nested :
    (nestedTexts.map (·.1)).Nodup ∧ "https://host/ed/é.json" ∉ nestedTexts.map (·.1) ∧
    lookup? nestedTexts "https://host/ed/é.json" = some "long" ∧
    lookup? nestedTexts.reverse "https://host/ed/é.json" = some "long" ∧
    lookup? (withText "d/é.json" "new" nestedTexts) "https://host/ed/é.json" = some "long" := by
  have hkeys : (nestedTexts.map (·.1)).Nodup := by decide
  have hown : "https://host/ed/é.json" ∉ nestedTexts.map (·.1) := by decide
  obtain ⟨horder, -, -, -, hadded⟩ := lookup?_of_nodup hkeys "https://host/ed/é.json"
  have hlong : lookup? nestedTexts "https://host/ed/é.json" = some "long" := by decide +kernel
  refine ⟨hkeys, hown, hlong, ?_, ?_⟩
  · rw [horder _ nestedTexts.reverse_perm, hlong]
  · have hnot : ¬EndsWith "https://host/ed/é.json" "d/é.json" := by
      unfold EndsWith
      decide +kernel
    rw [hadded "d/é.json" "new" (by decide) hnot _ (.refl _), hlong]

end IdlDocs
