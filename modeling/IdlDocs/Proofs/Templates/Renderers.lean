import IdlDocs.Proofs.Files.Reading
import IdlDocs.Proofs.Templates.Sources
import IdlDocs.Templates.Renderer

/-!
# The templates of a renderer

A renderer is made name by name: the built-in source texts are registered first, and then the files
of a directory.  Each step changes the template of its own name and leaves the other ones as they
are.

* `Changes.foldlM`: what steps for different names do together.
* `template?_of_builtIn`: the built-in templates, which include none.
* `exists_builtIn_of_ofDirectory`: **what the files of a directory change**, name by name.
* `template?_of_copy`: **a copy of a built-in template changes nothing.**
* `standard`, `builtIn_plain`: the built-in templates of the engine for templates that include none.
-/

namespace IdlDocs.Templates

theorem TemplateName.toWord_injective : Function.Injective TemplateName.toWord := by
  intro n m h
  cases n <;> cases m <;> first | rfl | exact absurd h (by decide)

theorem TemplateName.mem_all (n : TemplateName) : n ∈ all := by cases n <;> decide

namespace Renderer

variable {e : Engine} {r r' : Renderer e} {n : TemplateName} {source : String}

theorem render_of_template? {t : e.Template} (h : r.template? n.toWord = some t) (data : Json) :
    r.render n data = (e.render? r.template? t data).elim (.error .template) .ok := by
  unfold render
  rw [h, Option.bind_some]
  cases e.render? r.template? t data <;> rfl

/-! ## Steps -/

theorem register_of_compile? {t : e.Template} {name : String} (h : e.compile? source = some t) :
    r.register name source = .ok { templates := (name, t) :: r.templates } := by
  unfold register
  rw [h]

theorem template?_of_register (h : r.register n.toWord source = .ok r') :
    (∃ t, e.compile? source = some t ∧ r'.template? n.toWord = some t) ∧
      ∀ m ≠ n, r'.template? m.toWord = r.template? m.toWord := by
  unfold register at h
  split at h
  case h_2 => cases h
  case h_1 t ht =>
    cases h
    refine ⟨⟨t, ht, List.lookup_cons_self⟩, fun m hm => ?_⟩
    have hword : (m.toWord == n.toWord) = false :=
      beq_false_of_ne fun hw => hm (TemplateName.toWord_injective hw)
    unfold template?
    rw [List.lookup_cons, hword]

/-- Each step changes the template of its own name, so that the new one is related to the old one,
and no other one. -/
def Changes (step : Renderer e → TemplateName → Except Failure (Renderer e))
    (related : TemplateName → Option e.Template → Option e.Template → Prop) : Prop :=
  ∀ r n r', step r n = .ok r' →
    related n (r.template? n.toWord) (r'.template? n.toWord) ∧
      ∀ m ≠ n, r'.template? m.toWord = r.template? m.toWord

/-- **Steps for different names** change the template of each name once. -/
theorem Changes.foldlM {step : Renderer e → TemplateName → Except Failure (Renderer e)}
    {related : TemplateName → Option e.Template → Option e.Template → Prop}
    (hstep : Changes step related) {names : List TemplateName} (hnodup : names.Nodup)
    (h : names.foldlM step r = .ok r') :
    (∀ n ∈ names, related n (r.template? n.toWord) (r'.template? n.toWord)) ∧
      ∀ n ∉ names, r'.template? n.toWord = r.template? n.toWord := by
  induction names generalizing r with
  | nil =>
    cases h
    exact ⟨nofun, fun _ _ => rfl⟩
  | cons n names ih =>
    rw [List.nodup_cons] at hnodup
    rw [List.foldlM_cons] at h
    cases hone : step r n with
    | error failure =>
      rw [hone] at h
      cases h
    | ok between =>
      rw [hone] at h
      obtain ⟨hrelated, hsame⟩ := hstep r n between hone
      obtain ⟨hin, hout⟩ := ih hnodup.2 h
      constructor
      · rw [List.forall_mem_cons]
        refine ⟨by rw [hout n hnodup.1]; exact hrelated, fun m hm => ?_⟩
        have hne : m ≠ n := fun he => hnodup.1 (he ▸ hm)
        rw [← hsame m hne]
        exact hin m hm
      · intro m hm
        rw [List.mem_cons, not_or] at hm
        rw [hout m hm.2, hsame m hm.1]

/-! ## The built-in templates -/

/-- **The built-in templates are those of their source texts**, and include none. -/
theorem template?_of_builtIn (h : builtIn e = .ok r) (n : TemplateName) :
    ∃ t, e.compile? n.source = some t ∧ r.template? n.toWord = some t ∧ e.IncludesNone t := by
  have hstep : Changes (fun (r : Renderer e) m => r.register m.toWord m.source)
      fun m _ new => ∃ t, e.compile? m.source = some t ∧ new = some t := fun _ _ _ hone =>
    template?_of_register hone
  obtain ⟨t, ht, hnew⟩ := (hstep.foldlM (by decide) h).1 n n.mem_all
  exact ⟨t, ht, hnew, e.includesNone_of_compile? ht (hasInclusion_source n)⟩

/-- The built-in templates stand in the table in the opposite of their order. -/
theorem builtIn_of_compile? {templates : TemplateName → e.Template}
    (h : ∀ n : TemplateName, e.compile? n.source = some (templates n)) :
    builtIn e =
      .ok { templates := (TemplateName.all.map fun n => (n.toWord, templates n)).reverse } := by
  have hone : ∀ (r : Renderer e) (n : TemplateName), r.register n.toWord n.source =
      .ok { templates := (n.toWord, templates n) :: r.templates } := fun r n =>
    register_of_compile? (h n)
  unfold builtIn TemplateName.all
  simp only [List.foldlM_cons, List.foldlM_nil, hone]
  rfl

/-- The built-in templates of the engine for templates that include none. -/
def standard : Renderer .plain where
  templates := (TemplateName.all.map fun n => (n.toWord, Templates.builtIn n)).reverse

theorem builtIn_plain : builtIn .plain = .ok standard := builtIn_of_compile? parse?_source

theorem template?_standard (n : TemplateName) :
    standard.template? n.toWord = some (Templates.builtIn n) := by
  obtain ⟨t, ht, hnew, -⟩ := template?_of_builtIn builtIn_plain n
  rw [hnew, ← parse?_source n]
  exact ht.symm

theorem render_standard (n : TemplateName) (data : Json) :
    standard.render n data = (render? (Templates.builtIn n) data).elim (.error .template) .ok :=
  render_of_template? (template?_standard n) data

/-! ## Templates of a directory -/

variable {files : Files.Tree} {directory : String}

theorem changes_override : Changes (override (e := e) files directory) fun n old new =>
    (files.isFile (Files.joinPath directory n.fileName) = false → new = old) ∧
      ∀ source, files.read (Files.joinPath directory n.fileName) = .ok source →
        ∃ t, e.compile? source = some t ∧ new = some t := by
  intro r n r' h
  beta_reduce
  unfold override at h
  dsimp only at h
  cases hfile : files.isFile (Files.joinPath directory n.fileName) with
  | false =>
    rw [hfile] at h
    cases h
    obtain ⟨failure, hread⟩ := Files.Tree.exists_error_of_not_isFile hfile
    refine ⟨⟨fun _ => rfl, fun source hsource => ?_⟩, fun _ _ => rfl⟩
    rw [hread] at hsource
    cases hsource
  | true =>
    rw [hfile] at h
    cases hread : files.read (Files.joinPath directory n.fileName) with
    | error failure =>
      simp only [hread] at h
      cases h
    | ok source =>
      simp only [hread] at h
      obtain ⟨hnew, hother⟩ := template?_of_register h
      refine ⟨⟨nofun, fun source' hsource => ?_⟩, hother⟩
      cases hsource
      exact hnew

/-- **The file of a name decides alone what stands in for its template.** -/
theorem exists_builtIn_of_ofDirectory (h : ofDirectory e files directory = .ok r) :
    ∃ r₀, builtIn e = .ok r₀ ∧ ∀ n : TemplateName,
      (files.isFile (Files.joinPath directory n.fileName) = false →
        r.template? n.toWord = r₀.template? n.toWord) ∧
      ∀ source, files.read (Files.joinPath directory n.fileName) = .ok source →
        ∃ t, e.compile? source = some t ∧ r.template? n.toWord = some t := by
  unfold ofDirectory at h
  split at h
  · cases hbuilt : builtIn e with
    | error failure =>
      rw [hbuilt] at h
      cases h
    | ok r₀ =>
      rw [hbuilt] at h
      refine ⟨r₀, rfl, fun n => ?_⟩
      exact (changes_override.foldlM (by decide) h).1 n n.mem_all
  · cases h

/-- **A copy of a built-in template changes nothing.** -/
theorem template?_of_copy {r₀ : Renderer e} (h : ofDirectory e files directory = .ok r)
    (hbuilt : builtIn e = .ok r₀)
    (hread : files.read (Files.joinPath directory n.fileName) = .ok n.source) :
    r.template? n.toWord = r₀.template? n.toWord := by
  obtain ⟨_, -, hfiles⟩ := exists_builtIn_of_ofDirectory h
  obtain ⟨t, ht, hnew⟩ := (hfiles n).2 n.source hread
  obtain ⟨t₀, ht₀, hold, -⟩ := template?_of_builtIn hbuilt n
  rw [hnew, hold, ← ht, ← ht₀]

end Renderer

end IdlDocs.Templates
