import IdlDocs.Pages.Generation
import IdlDocs.Proofs.Templates.Renderers

/-!
# Templates of a directory

A directory may hold a file for the template of each name.  The template of a record is chosen by
the kind of the record alone, and all templates stand in one table.  What else is in the table
matters to a template only if it includes another one; the built-in ones include none.

* `renderPage_of_template?`, `renderPage_congr`: the text of a record, and where it depends on one
  template only.
* `includingEngine`: an engine that knows of inclusions.
* `overrides_are_local`: **a file in the place of a built-in template changes the texts of its own
  records only, and decides them alone** if it includes no other template.
-/

namespace IdlDocs

open Templates

variable {e : Engine} {files : Files.Tree} {directory : String} {r r' : Renderer e} {p : Page}

theorem renderPage_of_template? {t : e.Template} (h : r.template? p.template.toWord = some t) :
    renderPage r p = (e.render? r.template? t p.toJson).elim (.error .template) .ok :=
  Renderer.render_of_template? h p.toJson

/-- The text of a record depends on one template, if this one includes no other. -/
theorem renderPage_congr {t : e.Template} (ht : e.IncludesNone t)
    (h : r.template? p.template.toWord = some t) (h' : r'.template? p.template.toWord = some t) :
    renderPage r p = renderPage r' p := by
  rw [renderPage_of_template? h, renderPage_of_template? h',
    e.render?_of_includesNone ht r.template? r'.template?]

/-- **A file in the place of a built-in template changes the texts of its own records only.**  With
the templates of a directory, a record without such a file has the text that it has with the
built-in ones, or fails as it does with them, whatever the other files include.  A record with such
a file has the template in it; if this one includes no other, the text of the record is made from
it alone, whatever other files there are: any directory with this file gives the same. -/
theorem overrides_are_local (h : Renderer.ofDirectory e files directory = .ok r) (p : Page) :
    (files.isFile (Files.joinPath directory p.template.fileName) = false →
      ∃ builtIn, Renderer.builtIn e = .ok builtIn ∧ renderPage r p = renderPage builtIn p) ∧
    ∀ source, files.read (Files.joinPath directory p.template.fileName) = .ok source →
      ∃ t, e.compile? source = some t ∧ r.template? p.template.toWord = some t ∧
        (e.IncludesNone t →
          (∀ table, renderPage r p =
            (e.render? table t p.toJson).elim (.error .template) .ok) ∧
          ∀ (files' : Files.Tree) (directory' : String) (r' : Renderer e),
            Renderer.ofDirectory e files' directory' = .ok r' →
            files'.read (Files.joinPath directory' p.template.fileName) = .ok source →
              renderPage r' p = renderPage r p) := by
  obtain ⟨builtIn, hbuilt, hfiles⟩ := Renderer.exists_builtIn_of_ofDirectory h
  obtain ⟨hkept, hnew⟩ := hfiles p.template
  constructor
  · intro hfile
    obtain ⟨t, -, ht, hnone⟩ := Renderer.template?_of_builtIn hbuilt p.template
    exact ⟨builtIn, hbuilt, renderPage_congr hnone ((hkept hfile).trans ht) ht⟩
  · intro source hread
    obtain ⟨t, hcompiled, ht⟩ := hnew source hread
    refine ⟨t, hcompiled, ht, fun hnone => ⟨fun table => ?_, ?_⟩⟩
    · rw [renderPage_of_template? ht, e.render?_of_includesNone hnone r.template? table]
    · intro files' directory' r' h' hread'
      obtain ⟨_, -, hfiles'⟩ := Renderer.exists_builtIn_of_ofDirectory h'
      obtain ⟨t', hcompiled', ht'⟩ := (hfiles' p.template).2 source hread'
      cases hcompiled.symm.trans hcompiled'
      exact renderPage_congr hnone ht' ht

/-! ## A template that includes another one -/

/-- The name of the template that a source text includes, if there is nothing else in it. -/
def inclusion? (source : List Char) : Option String :=
  (Text.dropLead? ['\x7b', '\x7b', '>', ' '] source).bind fun rest =>
    (Text.cutAt ['\x7d', '\x7d'] rest).map fun x => String.ofList x.1

theorem hasInclusion_of_inclusion? {source : List Char} {name : String}
    (h : inclusion? source = some name) : hasInclusion source = true := by
  obtain ⟨rest, hrest, -⟩ := Option.bind_eq_some_iff.1 h
  rw [Text.eq_append_of_dropLead? hrest]
  rfl

def includingEngine : Engine where
  Template := String ⊕ Templates.Template
  compile? source :=
    match inclusion? source.toList with
    | some name => some (.inl name)
    | none => (parse? source).map .inr
  render? table t data :=
    match t with
    | .inl name => (table name).bind fun t => t.elim (fun _ => none) (Templates.render? · data)
    | .inr t => Templates.render? t data
  IncludesNone t := t.isRight
  includesNone_of_compile? {source t} h hsource := by
    cases hname : inclusion? source.toList with
    | some name =>
      rw [hasInclusion_of_inclusion? hname] at hsource
      cases hsource
    | none =>
      rw [hname] at h
      obtain ⟨t, -, rfl⟩ := Option.map_eq_some_iff.1 h
      rfl
  render?_of_includesNone {t} h _ _ _ := by
    cases t with
    | inl name => cases h
    | inr t => rfl

/-- A directory with a file in the place of the template of interfaces, and one that includes this
template in the place of that of events. -/
def overriddenFiles : Files.Tree :=
  { root := .directory [("templates", .directory
      [("interface.md.hbs", .file "# \x7b\x7binterfaceName\x7d\x7d (\x7b\x7bgroupName\x7d\x7d)"),
        ("event.md.hbs", .file "\x7b\x7b> interface\x7d\x7d")])] }

/-- The record of an interface without members. -/
def barePage : Page :=
  .interface ⟨"Node", false, some "DOM", false, false, {}, [], none, {}⟩

def bareMethodPage : Page :=
  .member ⟨"Node", "f", false, none, false, false, false, none, none, .method, none, false⟩

/-- Beside a template that includes another one, a record with a file has its text from this file,
and a record without one has the text of the built-in template. -/
theorem overrides_are_local_beside_inclusion :
    ∃ r builtIn, Renderer.ofDirectory includingEngine overriddenFiles "templates" = .ok r ∧
      Renderer.builtIn includingEngine = .ok builtIn ∧
      overriddenFiles.isFile (Files.joinPath "templates" bareMethodPage.template.fileName) =
        false ∧
      renderPage r bareMethodPage = renderPage builtIn bareMethodPage ∧
      overriddenFiles.read (Files.joinPath "templates" barePage.template.fileName) =
        .ok "# \x7b\x7binterfaceName\x7d\x7d (\x7b\x7bgroupName\x7d\x7d)" ∧
      renderPage r barePage = .ok "# Node (DOM)" := by
  have hcompiled : ∀ n : TemplateName, includingEngine.compile? n.source =
      some (Sum.inr (Templates.builtIn n)) := fun n => by
    have hname : inclusion? n.source.toList = none := by
      refine Option.eq_none_iff_forall_ne_some.2 fun name hname => ?_
      have hincluded := hasInclusion_of_inclusion? hname
      rw [hasInclusion_source] at hincluded
      cases hincluded
    unfold includingEngine
    dsimp only
    rw [hname, parse?_source]
    rfl
  have hbuilt := Renderer.builtIn_of_compile? hcompiled
  have hr : ∃ r, Renderer.ofDirectory includingEngine overriddenFiles "templates" = .ok r := by
    unfold Renderer.ofDirectory
    rw [if_pos (by decide +kernel), hbuilt]
    refine (Option.isSome_iff_exists.1 (?_ : (Except.toOption _).isSome = true)).imp fun r =>
      eq_ok_of_toOption
    decide +kernel
  obtain ⟨r, hr⟩ := hr
  have hmethod : overriddenFiles.isFile
      (Files.joinPath "templates" bareMethodPage.template.fileName) = false := by decide +kernel
  have hread : overriddenFiles.read (Files.joinPath "templates" barePage.template.fileName) =
      .ok "# \x7b\x7binterfaceName\x7d\x7d (\x7b\x7bgroupName\x7d\x7d)" := by decide +kernel
  obtain ⟨builtIn, hbuiltIn, hsame⟩ := (overrides_are_local hr bareMethodPage).1 hmethod
  refine ⟨r, builtIn, hr, hbuiltIn, hmethod, hsame, hread, ?_⟩
  obtain ⟨t, ht, -, halone⟩ := (overrides_are_local hr barePage).2 _ hread
  have hnone : includingEngine.IncludesNone t :=
    includingEngine.includesNone_of_compile? ht (by decide +kernel)
  rw [(halone hnone).1 fun _ => none]
  have hfilled : ((includingEngine.compile?
      "# \x7b\x7binterfaceName\x7d\x7d (\x7b\x7bgroupName\x7d\x7d)").bind fun t =>
        includingEngine.render? (fun _ => none) t barePage.toJson) = some "# Node (DOM)" := by
    decide +kernel
  rw [ht, Option.bind_some] at hfilled
  rw [hfilled]
  rfl

end IdlDocs
