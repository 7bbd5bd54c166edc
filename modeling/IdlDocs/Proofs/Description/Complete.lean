import IdlDocs.Proofs.Description.Outline

/-!
# The rules are complete

The rules of outlines say all that there is to say about descriptions: a type whose description
comes to an end has an outline, and the description is that of the outline.  A rule looks at
documents only to find what is shown of a name, so that two libraries that show the same describe
every type alike.

* `Outlines.of_shows`: outlines depend on nothing but what names show.
* `describe_outlines`: **a description that comes to an end is that of an outline.**
* `foundAt_describe_of_shows`: **libraries that show the same describe alike.**
-/

namespace IdlDocs

open Idl

variable {l l' : Library} {r r' : Registry}

/-! ## What names show -/

def Library.ShowsAs (l : Library) (r : Registry) (l' : Library) (r' : Registry) : Prop :=
  ∀ name kind fs, l.Shows r name kind fs ↔ l'.Shows r' name kind fs

namespace Library.ShowsAs

theorem symm (h : l.ShowsAs r l' r') : l'.ShowsAs r' l r :=
  fun name kind fs => (h name kind fs).symm

theorem isExpandable_iff (h : l.ShowsAs r l' r') (name : String) :
    l.IsExpandable r name ↔ l'.IsExpandable r' name := by
  unfold Library.IsExpandable
  simp only [h name]

end Library.ShowsAs

theorem Library.Alike.showsAs {s : Registry} (h : l.Alike r s) : l.ShowsAs r l s := by
  intro name kind fs
  unfold Library.Shows
  rw [h.document name]

/-- **An outline stays one where names show the same.** -/
theorem Outlines.of_shows {above : List String} {t : TypeExpr} {o : Outline}
    (h : l.ShowsAs r l' r') (ho : Outlines l r above t o) : Outlines l' r' above t o := by
  induction ho with
  | basic hb => exact .basic hb
  | @reference above name hb hn =>
    rw [h.isExpandable_iff name] at hn
    exact .reference hb hn
  | enumValues hb hn hs hv => exact .enumValues hb hn ((h _ _ _).1 hs) hv
  | dictionary hb hn hs hlen _ ih => exact .dictionary hb hn ((h _ _ _).1 hs) hlen ih
  | nullable _ ih => exact .nullable ih
  | union hlen _ ih => exact .union hlen ih
  | bare => exact .bare
  | generic hk _ ih => exact .generic hk ih
  | keyValue _ _ iht ihu => exact .keyValue iht ihu

/-! ## From descriptions to outlines -/

/-- By induction on the rules: a description is that of an outline, which is made of the outlines
of the parts.  These are outlines at the registry that the description starts from too, since
what is left of it is alike. -/
theorem Describes.outlines {above : List String} {t : TypeExpr} {s : Registry} {D : Description}
    (h : Describes l above t r D s) : ∃ o, Outlines l r above t o ∧ o.description = D := by
  induction h using @Describes.rec l _
    (fun above ts r ds _ _ => ∃ os : List Outline, os.length = ts.length ∧
      (∀ p ∈ ts.zip os, Outlines l r above p.1 p.2) ∧ Outline.descriptions os = ds) with
  | @basic _ _ label _ hb => exact ⟨.text label, .basic hb, rfl⟩
  | @within _ name _ hb hn => exact ⟨.reference name, .reference hb (.inl hn), rfl⟩
  | @closed _ name r _ hb _ hx =>
    have hshown := not_isExpandable_of_expansionOf ((Library.Alike.refl l r).expansionOf hx).2
    exact ⟨.reference name, .reference hb (.inr hshown), rfl⟩
  | @values _ name r vs _ hb hn hx =>
    obtain ⟨fs, hs, hv⟩ :=
      shows_of_expansionOf_values ((Library.Alike.refl l r).expansionOf hx).2
    exact ⟨.enumValues name vs, .enumValues hb hn hs hv, rfl⟩
  | @fields _ name r _ _ _ _ hb hn hx _ ih =>
    obtain ⟨halike, hvalue⟩ := (Library.Alike.refl l r).expansionOf hx
    obtain ⟨fs, hs, rfl⟩ := shows_of_expansionOf_fields hvalue
    obtain ⟨os, hlen, hos, rfl⟩ := ih
    have hback := halike.symm.showsAs
    exact ⟨_, .dictionary hb hn hs hlen fun p hp => (hos p hp).of_shows hback, rfl⟩
  | nullable _ ih =>
    obtain ⟨o, ho, hd⟩ := ih
    exact ⟨o, .nullable ho, hd⟩
  | union _ ih =>
    obtain ⟨os, hlen, hos, hd⟩ := ih
    exact ⟨.oneOf os, .union hlen hos, congrArg Description.oneOf hd⟩
  | @bare _ kind => exact ⟨.text kind.tag, .bare, rfl⟩
  | @generic _ kind _ _ _ _ _ hk _ ih =>
    obtain ⟨o, ho, hd⟩ := ih
    exact ⟨.generic kind o, .generic hk ho, congrArg (Description.ofGeneric kind) hd⟩
  | keyValue hfirst _ iht ihu =>
    obtain ⟨o, ho, rfl⟩ := iht
    obtain ⟨o', ho', rfl⟩ := ihu
    have hback := hfirst.reaches.1.symm.showsAs
    exact ⟨.keyValue o o', .keyValue ho (ho'.of_shows hback), rfl⟩
  | nil => exact ⟨[], rfl, fun p hp => absurd hp List.not_mem_nil, rfl⟩
  | cons hfirst _ iht ihs =>
    obtain ⟨o, ho, rfl⟩ := iht
    obtain ⟨os, hlen, hos, rfl⟩ := ihs
    have hback := hfirst.reaches.1.symm.showsAs
    refine ⟨o :: os, congrArg (· + 1) hlen, ?_, rfl⟩
    exact List.forall_mem_cons.2 ⟨ho, fun p hp => (hos p hp).of_shows hback⟩

/-- **A description that comes to an end is that of an outline.** -/
theorem describe_outlines {above : List String} {t : TypeExpr} {D : Description} {s : Registry}
    (h : describeType l above t r = some (D, s)) :
    ∃ o, Outlines l r above t o ∧ o.description = D :=
  (describes_of_describeType h).outlines

/-! ## Libraries that show the same -/

theorem exists_describeType_of_shows (h : l.ShowsAs r l' r') {above : List String} {t : TypeExpr}
    {D : Description} {s : Registry} (hD : describeType l above t r = some (D, s)) :
    ∃ s', describeType l' above t r' = some (D, s') := by
  obtain ⟨o, ho, rfl⟩ := describe_outlines hD
  obtain ⟨s', hs', -⟩ := (ho.of_shows h).settles r' (.refl l' r')
  exact ⟨s', hs'⟩

/-- **Libraries that show the same describe every type alike**, also where describing it does not
come to an end. -/
theorem foundAt_describe_of_shows (h : l.ShowsAs r l' r') (t : TypeExpr) :
    foundAt l r (describe t) = foundAt l' r' (describe t) := by
  rw [foundAt_describe, foundAt_describe]
  cases hr : describeType l [] t r with
  | some out =>
    obtain ⟨D, s⟩ := out
    obtain ⟨s', hs'⟩ := exists_describeType_of_shows h hr
    rw [hs']
    rfl
  | none =>
    cases hr' : describeType l' [] t r' with
    | none => rfl
    | some out =>
      obtain ⟨s', hs'⟩ := exists_describeType_of_shows h.symm hr'
      rw [hr] at hs'
      cases hs'

end IdlDocs
