import Intake.Element.Edit
import Intake.Proofs.Cleaning.Pipelines

/-!
# Cleaning in place is done as a whole or not at all

Cleaning a section where it stands ends as if its cleaned value were put in the place of the old
one: where there is no such value, the section is what it was. The loop over the paragraphs of a
body does leave some of them cleaned when it fails, but only in the copy that it works on. What
cleaning gives differs from the old value in the texts that the pipeline makes anew, and in nothing
else.
-/

namespace Intake.Element

/-! ## Edits that replace a value -/

namespace Edit

variable {σ : Type} {s s' : σ} {r : Except Fault σ} {f : Fault}

/-- How an edit ends that puts a new value in the place of the old one, if there is a new one. -/
def ending (s : σ) : Except Fault σ → EStateM.Result Fault σ Unit
  | .ok s' => .ok () s'
  | .error f => .error f s

theorem ending_eq_ok : ending s r = .ok () s' ↔ r = .ok s' := by
  cases r <;> simp [ending]

theorem ending_eq_error : ending s r = .error f s' ↔ s' = s ∧ r = .error f := by
  cases r <;> simp [ending, and_comm, eq_comm]

theorem within_eq {τ : Type} {wrap : τ → σ} {edit : Edit τ Unit} {t : τ} {r : Except Fault τ}
    (h : edit.run t = ending t r) : within wrap edit t = ending (wrap t) (r.map wrap) := by
  have hedit : edit t = ending t r := h
  rw [within, hedit]
  cases r <;> rfl

section

variable {edit : Edit σ Unit} {clean : σ → Except Fault σ} {as bs : List σ}
  (hedit : ∀ a, edit.run a = ending a (clean a))

include hedit

theorem each_of_ok (h : as.mapM clean = .ok bs) : (each edit).run as = .ok () bs := by
  induction as generalizing bs with
  | nil =>
      cases h
      rfl
  | cons a rest ih =>
      rw [List.mapM_cons, bind_eq_ok] at h
      obtain ⟨a', ha, h⟩ := h
      rw [bind_eq_ok] at h
      obtain ⟨rest', hrest, h⟩ := h
      cases h
      have hfirst : edit a = .ok () a' := (hedit a).trans (ending_eq_ok.mpr ha)
      have hgo : each edit rest = .ok () rest' := ih hrest
      change each edit (a :: rest) = _
      rw [each, hfirst]
      simp only [hgo]

/-- What the list has become is left open: its members before the first failure are edited. -/
theorem each_of_error (h : as.mapM clean = .error f) :
    ∃ bs, (each edit).run as = .error f bs := by
  induction as with
  | nil => cases h
  | cons a rest ih =>
      change ∃ bs, each edit (a :: rest) = _
      rw [List.mapM_cons, bind_eq_error] at h
      rcases h with ha | ⟨a', ha, h⟩
      · have hfirst : edit a = .error f a := (hedit a).trans (ending_eq_error.mpr ⟨rfl, ha⟩)
        rw [each, hfirst]
        exact ⟨a :: rest, rfl⟩
      · have hfirst : edit a = .ok () a' := (hedit a).trans (ending_eq_ok.mpr ha)
        rw [bind_eq_error] at h
        rcases h with hrest | ⟨_, _, h⟩
        · obtain ⟨bs, hbs⟩ := ih hrest
          have hgo : each edit rest = .error f bs := hbs
          rw [each, hfirst]
          simp only [hgo]
          exact ⟨a' :: bs, rfl⟩
        · cases h

end

end Edit

/-! ## Cleaning a value -/

variable {cleaners : List Cleaning.Cleaner} {f : Fault}

/-- What a pipeline makes of the text of a paragraph. -/
def CleanedText (cleaners : List Cleaning.Cleaner) (text text' : String) : Prop :=
  Cleaning.run cleaners [⟨"text", text⟩] = .ok [⟨"text", text'⟩]

theorem Paragraph.clean_eq_ok {p q : Paragraph} : p.clean cleaners = .ok q ↔
    ∃ text, CleanedText cleaners p.text text ∧ q = { p with text := text } := by
  simp only [Paragraph.clean, map_eq_ok, Cleaning.runOne_eq_ok, CleanedText, @eq_comm _ q]

theorem Paragraph.clean_eq_error {p : Paragraph} : p.clean cleaners = .error f ↔
    Cleaning.run cleaners [⟨"text", p.text⟩] = .error f := by
  rw [Paragraph.clean, map_eq_error, Cleaning.runOne_eq_error]

theorem Name.clean_eq_ok {n m : Name} : n.clean cleaners = .ok m ↔
    ∃ text name, Cleaning.run cleaners [⟨"text", n.text⟩, ⟨"name", n.name⟩] =
      .ok [⟨"text", text⟩, ⟨"name", name⟩] ∧ m = { n with text := text, name := name } := by
  rw [Name.clean, map_eq_ok]
  constructor
  · rintro ⟨results, hrun, rfl⟩
    obtain ⟨text, name, rfl⟩ := Cleaning.run_pair hrun
    exact ⟨text, name, hrun, rfl⟩
  · rintro ⟨text, name, hrun, rfl⟩
    exact ⟨_, hrun, rfl⟩

theorem Name.clean_eq_error {n : Name} : n.clean cleaners = .error f ↔
    Cleaning.run cleaners [⟨"text", n.text⟩, ⟨"name", n.name⟩] = .error f := by
  rw [Name.clean, map_eq_error]

/-- What cleaning makes of a section: it has the texts that the pipeline makes of the old ones, for
a name also its name, and for a body a paragraph for each of the old ones in their order. All else
is as it was. -/
inductive Cleaned (cleaners : List Cleaning.Cleaner) : Section → Section → Prop
  | name {n : Name} {text name : String}
      (h : Cleaning.run cleaners [⟨"text", n.text⟩, ⟨"name", n.name⟩] =
        .ok [⟨"text", text⟩, ⟨"name", name⟩]) :
      Cleaned cleaners (.name n) (.name { n with text := text, name := name })
  | text {p : Paragraph} {text : String} (h : CleanedText cleaners p.text text) :
      Cleaned cleaners (.text p) (.text { p with text := text })
  | body {b c : Body}
      (h : List.Forall₂ (fun p q => ∃ text, CleanedText cleaners p.text text ∧
        q = { p with text := text }) b.paragraphs c.paragraphs) :
      Cleaned cleaners (.body b) (.body c)

/-- Why a section cannot be cleaned: the fault of its pipeline, and for a body that of the first
paragraph whose pipeline fails. -/
inductive Uncleanable (cleaners : List Cleaning.Cleaner) : Section → Fault → Prop
  | name {n : Name} {f : Fault}
      (h : Cleaning.run cleaners [⟨"text", n.text⟩, ⟨"name", n.name⟩] = .error f) :
      Uncleanable cleaners (.name n) f
  | text {p : Paragraph} {f : Fault} (h : Cleaning.run cleaners [⟨"text", p.text⟩] = .error f) :
      Uncleanable cleaners (.text p) f
  | body {b : Body} {f : Fault} {k : Nat} {p : Paragraph} (hp : b.paragraphs[k]? = some p)
      (h : Cleaning.run cleaners [⟨"text", p.text⟩] = .error f)
      (hbefore : ∀ i < k, ∀ q, b.paragraphs[i]? = some q →
        ∃ text, CleanedText cleaners q.text text) :
      Uncleanable cleaners (.body b) f

theorem Paragraph.exists_clean_eq_ok {p : Paragraph} :
    (∃ q, p.clean cleaners = .ok q) ↔ ∃ text, CleanedText cleaners p.text text := by
  simp only [Paragraph.clean_eq_ok]
  constructor
  · rintro ⟨_, text, htext, -⟩
    exact ⟨text, htext⟩
  · rintro ⟨text, htext⟩
    exact ⟨_, text, htext, rfl⟩

theorem Body.clean_eq_ok {b c : Body} : b.clean cleaners = .ok c ↔
    List.Forall₂ (fun p q => ∃ text, CleanedText cleaners p.text text ∧ q = { p with text := text })
      b.paragraphs c.paragraphs := by
  simp only [← Paragraph.clean_eq_ok, ← mapM_eq_ok, Body.clean, map_eq_ok]
  constructor
  · rintro ⟨qs, hqs, rfl⟩
    exact hqs
  · intro hall
    exact ⟨c.paragraphs, hall, rfl⟩

theorem Body.clean_eq_error {b : Body} : b.clean cleaners = .error f ↔
    b.paragraphs.mapM (Paragraph.clean cleaners) = .error f := by
  rw [Body.clean, map_eq_error]

theorem Section.clean_eq_ok {s s' : Section} :
    s.clean cleaners = .ok s' ↔ Cleaned cleaners s s' := by
  constructor
  · intro h
    cases s with
    | name n =>
        obtain ⟨m, hm, rfl⟩ := map_eq_ok.mp h
        obtain ⟨text, name, hrun, rfl⟩ := Name.clean_eq_ok.mp hm
        exact .name hrun
    | text p =>
        obtain ⟨q, hq, rfl⟩ := map_eq_ok.mp h
        obtain ⟨text, htext, rfl⟩ := Paragraph.clean_eq_ok.mp hq
        exact .text htext
    | body b =>
        obtain ⟨c, hc, rfl⟩ := map_eq_ok.mp h
        exact .body (Body.clean_eq_ok.mp hc)
  · intro h
    cases h with
    | name hrun => exact map_eq_ok.mpr ⟨_, Name.clean_eq_ok.mpr ⟨_, _, hrun, rfl⟩, rfl⟩
    | text htext => exact map_eq_ok.mpr ⟨_, Paragraph.clean_eq_ok.mpr ⟨_, htext, rfl⟩, rfl⟩
    | body hall => exact map_eq_ok.mpr ⟨_, Body.clean_eq_ok.mpr hall, rfl⟩

theorem Section.clean_eq_error {s : Section} :
    s.clean cleaners = .error f ↔ Uncleanable cleaners s f := by
  constructor
  · intro h
    cases s with
    | name n => exact .name (Name.clean_eq_error.mp (map_eq_error.mp h))
    | text p => exact .text (Paragraph.clean_eq_error.mp (map_eq_error.mp h))
    | body b =>
        obtain ⟨k, p, hp, hfails, hbefore⟩ :=
          mapM_eq_error.mp (Body.clean_eq_error.mp (map_eq_error.mp h))
        exact .body hp (Paragraph.clean_eq_error.mp hfails) fun i hi q hq =>
          Paragraph.exists_clean_eq_ok.mp (hbefore i hi q hq)
  · intro h
    cases h with
    | name hrun => exact map_eq_error.mpr (Name.clean_eq_error.mpr hrun)
    | text hrun => exact map_eq_error.mpr (Paragraph.clean_eq_error.mpr hrun)
    | @body b _ k p hp hrun hbefore =>
        exact map_eq_error.mpr (Body.clean_eq_error.mpr (mapM_eq_error.mpr
          ⟨k, p, hp, Paragraph.clean_eq_error.mpr hrun, fun i hi q hq =>
            Paragraph.exists_clean_eq_ok.mpr (hbefore i hi q hq)⟩))

/-! ## Cleaning in place -/

theorem Paragraph.run_apply (p : Paragraph) :
    (Paragraph.apply cleaners).run p = Edit.ending p (p.clean cleaners) := by
  rw [Paragraph.clean]
  change EStateM.bind (MonadExcept.ofExcept _) _ p = _
  cases Cleaning.runOne cleaners ⟨"text", p.text⟩ <;> rfl

theorem Name.run_apply (n : Name) :
    (Name.apply cleaners).run n = Edit.ending n (n.clean cleaners) := by
  rw [Name.clean]
  change EStateM.bind (MonadExcept.ofExcept _) _ n = _
  cases hrun : Cleaning.run cleaners [⟨"text", n.text⟩, ⟨"name", n.name⟩] with
  | error f => rfl
  | ok results =>
      obtain ⟨text, name, rfl⟩ := Cleaning.run_pair hrun
      rfl

theorem Body.run_apply (b : Body) :
    (Body.apply cleaners).run b = Edit.ending b (b.clean cleaners) := by
  rw [Body.clean, Body.apply]
  cases hclean : b.paragraphs.mapM (Paragraph.clean cleaners) with
  | error f =>
      obtain ⟨bs, hbs⟩ := Edit.each_of_error Paragraph.run_apply hclean
      simp [hbs, Edit.ending, Except.map]
  | ok qs =>
      have hqs := Edit.each_of_ok Paragraph.run_apply hclean
      simp [hqs, Edit.ending, Except.map]

/-- Cleaning in place puts the cleaned value in the place of the old one, if there is one. -/
theorem Section.run_apply (s : Section) :
    (Section.apply cleaners).run s = Edit.ending s (s.clean cleaners) := by
  cases s with
  | name n => exact Edit.within_eq (Name.run_apply n)
  | text p => exact Edit.within_eq (Paragraph.run_apply p)
  | body b => exact Edit.within_eq (Body.run_apply b)

/-- **Cleaning in place is all or nothing.** Cleaning a section where it stands succeeds exactly
with what the pipeline makes of its texts, all else being left as it was; and it fails exactly with
the fault of its pipeline, for a body that of the first paragraph that fails, and then the section
is what it was in every part. A body is cleaned exactly if each of its paragraphs can be. -/
theorem apply_all_or_nothing (cleaners : List Cleaning.Cleaner) :
    (∀ s s', (Section.apply cleaners).run s = .ok () s' ↔ Cleaned cleaners s s') ∧
    (∀ s f s', (Section.apply cleaners).run s = .error f s' ↔
      s' = s ∧ Uncleanable cleaners s f) ∧
    ∀ b, (∃ s', (Section.apply cleaners).run (.body b) = .ok () s') ↔
      ∀ p ∈ b.paragraphs, ∃ text, CleanedText cleaners p.text text := by
  refine ⟨fun s s' => ?_, fun s f s' => ?_, fun b => ?_⟩
  · rw [Section.run_apply, Edit.ending_eq_ok, Section.clean_eq_ok]
  · rw [Section.run_apply, Edit.ending_eq_error, Section.clean_eq_error]
  · simp only [Section.run_apply, Edit.ending_eq_ok, ← Paragraph.exists_clean_eq_ok,
      ← exists_forall₂, ← mapM_eq_ok]
    constructor
    · rintro ⟨s', hs'⟩
      obtain ⟨c, hc, rfl⟩ := map_eq_ok.mp hs'
      obtain ⟨qs, hqs, rfl⟩ := map_eq_ok.mp hc
      exact ⟨qs, hqs⟩
    · rintro ⟨qs, hqs⟩
      exact ⟨.body ⟨qs⟩, map_eq_ok.mpr ⟨⟨qs⟩, map_eq_ok.mpr ⟨qs, hqs, rfl⟩, rfl⟩⟩

end Intake.Element
