import Intake.Proofs.Document.Fetch
import Intake.Proofs.Document.Places
import Intake.Run.Task

/-!
# What the work on a document changes

Whatever a task does, it changes no file but the staged file and the result of its
document, and makes no directory but those that lead to them. Where it ends, the document
has been cleaned up after all else was done.
-/

namespace Intake

open Files

namespace Document

variable {σ : Type}

/-- The same document, of which something else may be known. -/
structure Akin (d d' : Document σ) : Prop where
  source : d'.source = d.source
  settings : d'.settings = d.settings

theorem Akin.refl (d : Document σ) : Akin d d := ⟨rfl, rfl⟩

theorem Akin.symm {d d' : Document σ} (h : Akin d d') : Akin d' d :=
  ⟨h.source.symm, h.settings.symm⟩

theorem Akin.trans {d d' d'' : Document σ} (h : Akin d d') (h' : Akin d' d'') : Akin d d'' :=
  ⟨h'.source.trans h.source, h'.settings.trans h.settings⟩

theorem Akin.locator {d d' : Document σ} (h : Akin d d') : d'.locator = d.locator := by
  rw [Document.locator, h.source, Document.locator]

theorem Akin.stagingPath {d d' : Document σ} (h : Akin d d') :
    d'.stagingPath = d.stagingPath := by
  rw [Document.stagingPath, Document.stagingPath, h.locator, h.source, h.settings]

theorem Akin.outputPath {d d' : Document σ} (h : Akin d d') : d'.outputPath = d.outputPath := by
  rw [Document.outputPath, Document.outputPath, h.locator, h.settings]

theorem Akin.cleanUp {d d' : Document σ} (h : Akin d d') (fs : FileSystem) :
    d'.cleanUp fs = d.cleanUp fs := by
  rw [Document.cleanUp, Document.cleanUp, h.settings, h.stagingPath]

theorem akin_learn (d : Document σ) (answer : Except Fault Probe) :
    Akin d (d.learn answer).2 := by
  cases answer with
  | error f => exact .refl d
  | ok found =>
      rw [learn]
      cases observed found with
      | error f => exact .refl d
      | ok known => exact ⟨rfl, rfl⟩

theorem akin_receive (d : Document σ) (fs : FileSystem) (answer : Except Fault Download) :
    Akin d (d.receive fs answer).2.1 := by
  cases h : (d.receive fs answer).1 with
  | error f =>
      rw [(receive_error h).1]
      exact ⟨rfl, rfl⟩
  | ok u =>
      obtain ⟨_, _, _, _, _, _, hd, _⟩ := receive_ok h
      rw [hd]
      exact ⟨rfl, rfl⟩

/-- The places of directories that may be made for a document. -/
def ways (d : Document σ) (fs : FileSystem) : Set Location :=
  fs.wayTo d.settings.downloadDir ∪ fs.wayTo d.settings.outputDir

/-- The places of the files of a document. -/
def places (d : Document σ) (cwd : Location) : Set Location :=
  {d.stagingPlace cwd, d.outputPlace cwd}

theorem Akin.ways {d d' : Document σ} (h : Akin d d') (fs : FileSystem) :
    d'.ways fs = d.ways fs := by
  rw [Document.ways, Document.ways, h.settings]

theorem Akin.places {d d' : Document σ} (h : Akin d d') (cwd : Location) :
    d'.places cwd = d.places cwd := by
  rw [Document.places, Document.places, stagingPlace, stagingPlace, outputPlace, outputPlace,
    h.stagingPath, h.outputPath]

/-- Which directories may be made hangs on the current directory alone. -/
theorem ways_congr {d : Document σ} {fs fs' : FileSystem} (hcwd : fs'.cwd = fs.cwd) :
    d.ways fs' = d.ways fs := by
  unfold ways FileSystem.wayTo
  rw [hcwd]

theorem wayTo_outputPath (d : Document σ) (fs : FileSystem) :
    fs.wayTo ((d.outputPath.parent?).getD ⟨"."⟩) ⊆ d.ways fs := by
  rw [d.parent?_outputPath, Option.getD_some]
  exact (FileSystem.wayTo_components fs _).trans Set.subset_union_right

/-! ## Cleaning up -/

/-- Cleaning up removes the staged file where it is not to be kept and can be found. -/
theorem cleanUp_cases (d : Document σ) (fs : FileSystem) :
    (d.settings.retain = true ∨ fs.isFile d.stagingPath = false) ∧ d.cleanUp fs = fs ∨
      d.settings.retain = false ∧ fs.removeFile d.stagingPath = .ok (d.cleanUp fs) := by
  rw [cleanUp]
  by_cases hretain : d.settings.retain = true
  · rw [if_pos hretain]
    exact Or.inl ⟨Or.inl hretain, rfl⟩
  · rw [if_neg hretain]
    cases hremove : fs.removeFile d.stagingPath with
    | ok fs' => exact Or.inr ⟨Bool.not_eq_true _ ▸ hretain, rfl⟩
    | error e =>
        left
        refine ⟨Or.inr ?_, rfl⟩
        rw [Bool.eq_false_iff]
        intro hfile
        obtain ⟨fs', hfs'⟩ := FileSystem.exists_removeFile hfile
        rw [hremove] at hfs'
        cases hfs'

theorem touched_cleanUp (d : Document σ) (fs : FileSystem) :
    Touched {d.stagingPlace fs.cwd} ∅ fs (d.cleanUp fs) := by
  rcases d.cleanUp_cases fs with ⟨_, heq⟩ | ⟨_, hremove⟩
  · rw [heq]
    exact .refl fs
  · exact FileSystem.touched_removeFile hremove

/-- Unless staged files are kept, cleaning up leaves none. -/
theorem isFile_cleanUp {d : Document σ} (hretain : d.settings.retain = false)
    (fs : FileSystem) : (d.cleanUp fs).isFile d.stagingPath = false := by
  rcases d.cleanUp_cases fs with ⟨hkept, heq⟩ | ⟨_, hremove⟩
  · rw [heq]
    rcases hkept with hkept | hnone
    · rw [hretain] at hkept
      cases hkept
    · exact hnone
  · obtain ⟨hcwd, _, hsight⟩ := FileSystem.sight?_removeFile hremove
    rw [Bool.eq_false_iff]
    intro hfile
    have hcontent := FileSystem.content?_of_isFile hfile
    rw [hcwd, FileSystem.content?, hsight, Function.update_self] at hcontent
    cases hcontent

theorem cleanUp_of_retain {d : Document σ} (hretain : d.settings.retain = true)
    (fs : FileSystem) : d.cleanUp fs = fs := by
  rw [cleanUp, if_pos hretain]

/-! ## Results -/

/-- What the making of a result does to the files, whether it succeeds or not. -/
structure Converts (d : Document σ) (before after : FileSystem) : Prop where
  touched : Touched {d.outputPlace before.cwd} (d.ways before) before after
  keeps : Keeps before after

theorem Converts.refl (d : Document σ) (fs : FileSystem) : Converts d fs fs :=
  ⟨.refl fs, .refl fs⟩

theorem converts_write (d : Document σ) (o : Output) (fs : FileSystem) (struck : Option Fault) :
    Converts d fs (o.write fs d.outputPath struck).2 := by
  rw [Output.write]
  exact ⟨(FileSystem.touched_publish _ _ _ _ _).mono (Set.Subset.refl _) (d.wayTo_outputPath fs),
    FileSystem.keeps_publish _ _ _ _ _⟩

theorem converts_convert (d : Document σ) (plan : Plan) (window : Time.Window)
    (fs : FileSystem) : Converts d fs (d.convert plan window fs).2 := by
  rw [convert]
  split
  · exact .refl d fs
  · exact .refl d fs
  · next ps _ =>
      have hwrite := d.converts_write (d.output window (plan.conditions.clock d.locator) ps) fs
        (plan.conditions.strike d.locator)
      split
      · next fs' hfs' =>
          rw [hfs'] at hwrite
          exact hwrite
      · next f fs' hfs' =>
          rw [hfs'] at hwrite
          exact hwrite

end Document

namespace Task

variable {σ : Type} {plan : Plan} {d : Document σ} {t t' : Task σ} {w w' : World σ}

/-- Whether work has begun, so that there is something to clean up. -/
def Begun : Task σ → Prop
  | .fresh _ => False
  | .downloading _ | .probing _ => True

/-- What has become of the files where a task waits: the document is staged, or there are
just the files that were there before. -/
structure Waits (d : Document σ) (before after : FileSystem) : Prop where
  touched : Touched {d.stagingPlace before.cwd} (d.ways before) before after
  staged : after.content? = before.content? ∨ after.isFile d.stagingPath = true

theorem Waits.refl (d : Document σ) (fs : FileSystem) : Waits d fs fs := ⟨.refl fs, Or.inl rfl⟩

theorem Waits.keeps {before after : FileSystem} (h : Waits d before after) :
    Keeps before after := by
  refine h.touched.keeps ?_
  intro loc hmem hloc
  rcases h.staged with hsame | hstaged
  · rw [hsame]
    exact hloc
  · rw [Set.mem_singleton_iff.mp hmem, Document.stagingPlace, ← h.touched.cwd]
    exact FileSystem.content?_of_isFile hstaged

/-- What has become of the files where a task ends: the document may have been staged, its
result may have been made, and then it was cleaned up. -/
def Ends (d : Document σ) (before after : FileSystem) : Prop :=
  ∃ staged made, Waits d before staged ∧ d.Converts staged made ∧ after = d.cleanUp made

theorem Waits.of_akin {d' : Document σ} {before after : FileSystem} (hakin : d.Akin d')
    (h : Waits d' before after) : Waits d before after where
  touched := by
    have htouched := h.touched
    rwa [hakin.ways, Document.stagingPlace, hakin.stagingPath] at htouched
  staged := by
    have hstaged := h.staged
    rwa [hakin.stagingPath] at hstaged

theorem Ends.of_akin {d' : Document σ} {before after : FileSystem} (hakin : d.Akin d')
    (h : Ends d' before after) : Ends d before after := by
  obtain ⟨staged, made, hstaged, ⟨htouched, hkeeps⟩, rfl⟩ := h
  rw [hakin.ways, Document.outputPlace, hakin.outputPath] at htouched
  exact ⟨staged, made, hstaged.of_akin hakin, ⟨htouched, hkeeps⟩, hakin.cleanUp made⟩

theorem ends_cleanUp (d : Document σ) (fs : FileSystem) : Ends d fs (d.cleanUp fs) :=
  ⟨fs, fs, .refl d fs, .refl d fs, rfl⟩

theorem ends_convert (plan : Plan) (window : Time.Window) {before after : FileSystem}
    (h : Waits d before after) :
    Ends d before (d.cleanUp (d.convert plan window after).2) :=
  ⟨after, _, h, d.converts_convert plan window after, rfl⟩

theorem finish_eq (d : Document σ) (attempt : Ending (Except Fault Nat)) (w : World σ) :
    finish d attempt w =
      (.ended (attempt.map (.ofAttempt d.locator)), { w with files := d.cleanUp w.files }) := rfl

theorem deliver_eq (plan : Plan) (d : Document σ) (window : Time.Window) (w : World σ) :
    deliver plan d window w =
      (.ended ((d.convert plan window w.files).1.map (.ofAttempt d.locator)),
        { w with files := d.cleanUp (d.convert plan window w.files).2 }) := rfl

/-- What a staged document comes to: its end, or a probe for its window. -/
theorem proceed_cases (plan : Plan) (w : World σ) {before : FileSystem}
    (h : Waits d before w.files) :
    (∃ ending w', proceed plan d w = (.ended ending, w') ∧ Ends d before w'.files) ∨
      proceed plan d w = (.waiting (.probing d), w) := by
  rw [proceed]
  split
  · next window _ =>
      rw [deliver_eq]
      exact Or.inl ⟨_, _, rfl, ends_convert plan window h⟩
  · exact Or.inr rfl

/-- A received answer leaves the document staged, or the files as they were. -/
theorem waits_receive (d : Document σ) (fs : FileSystem) (answer : Except Fault Download) :
    Waits d fs (d.receive fs answer).2.2 := by
  cases h : (d.receive fs answer).1 with
  | error f =>
      have htouched := (Document.receive_error h).2
      refine ⟨htouched.mono (Set.empty_subset _) Set.subset_union_left, Or.inl ?_⟩
      exact funext fun loc => htouched.contents loc (Set.notMem_empty loc)
  | ok u =>
      obtain ⟨_, _, _, _, _, _, _, htouched, hfile, _⟩ := Document.receive_ok h
      exact ⟨htouched.mono (Set.Subset.refl _) Set.subset_union_left, Or.inr hfile⟩

/-- **A step of a task changes the files of its document alone.** -/
theorem step_cases (plan : Plan) (t : Task σ) (w : World σ) :
    (∃ ending w', t.step plan w = (.ended ending, w') ∧ Ends t.document w.files w'.files) ∨
      ∃ t' w', t.step plan w = (.waiting t', w') ∧ t.document.Akin t'.document ∧ t'.Begun ∧
        Waits t.document w.files w'.files := by
  cases t with
  | fresh d =>
      -- nothing is asked of the source yet: an end, or a wait in the same files
      rw [step]
      split
      · exact Or.inl ⟨_, _, rfl, ends_cleanUp d w.files⟩
      · split
        · rcases proceed_cases plan w (Waits.refl d.held w.files) with
            ⟨ending, w', heq, hends⟩ | heq
          · exact Or.inl ⟨ending, w', heq, hends.of_akin (show d.Akin d.held from ⟨rfl, rfl⟩)⟩
          · exact Or.inr ⟨_, _, heq, ⟨rfl, rfl⟩, trivial, .refl d w.files⟩
        · exact Or.inr ⟨_, _, rfl, .refl d, trivial, .refl d w.files⟩
  | downloading d =>
      rw [step]
      simp only
      have hakin := d.akin_receive w.files (d.source.download w.remote).1
      have hwaits := waits_receive d w.files (d.source.download w.remote).1
      cases hreceive : d.receive w.files (d.source.download w.remote).1 with
      | mk r rest =>
          obtain ⟨d', files⟩ := rest
          rw [hreceive] at hakin hwaits
          have hwaits' : Waits d' w.files files := hwaits.of_akin hakin.symm
          cases r with
          | error f =>
              simp only [finish_eq]
              refine Or.inl ⟨_, _, rfl, Ends.of_akin hakin ?_⟩
              exact ⟨files, files, hwaits', .refl d' files, rfl⟩
          | ok u =>
              rcases proceed_cases plan ⟨files, (d.source.download w.remote).2⟩ hwaits' with
                ⟨ending, w', heq, hends⟩ | heq
              · exact Or.inl ⟨ending, w', heq, hends.of_akin hakin⟩
              · exact Or.inr ⟨_, _, heq, hakin, trivial, hwaits⟩
  | probing d =>
      rw [step]
      simp only
      have hakin := d.akin_learn (d.source.probe w.remote).1
      cases hlearn : d.learn (d.source.probe w.remote).1 with
      | mk r d' =>
          rw [hlearn] at hakin
          cases r with
          | error f =>
              simp only [finish_eq]
              exact Or.inl ⟨_, _, rfl, (ends_cleanUp d' w.files).of_akin hakin⟩
          | ok u =>
              simp only [deliver_eq]
              refine Or.inl ⟨_, _, rfl, Ends.of_akin hakin ?_⟩
              exact ends_convert plan _ (Waits.refl d' w.files)

theorem waits_of_step (h : t.step plan w = (.waiting t', w')) :
    t.document.Akin t'.document ∧ t'.Begun ∧ Waits t.document w.files w'.files := by
  rcases step_cases plan t w with ⟨_, _, heq, _⟩ | ⟨_, _, heq, hakin, hbegun, hwaits⟩
  · rw [heq] at h
    cases h
  · rw [heq] at h
    cases h
    exact ⟨hakin, hbegun, hwaits⟩

theorem ends_of_step {ending : Ending Outcome} (h : t.step plan w = (.ended ending, w')) :
    Ends t.document w.files w'.files := by
  rcases step_cases plan t w with ⟨_, _, heq, hends⟩ | ⟨_, _, heq, _⟩
  · rw [heq] at h
    cases h
    exact hends
  · rw [heq] at h
    cases h

/-- Where a task ends, no file has changed but those of its document. -/
theorem Ends.touched {before after : FileSystem} (h : Ends d before after) :
    Touched (d.places before.cwd) (d.ways before) before after := by
  obtain ⟨staged, made, hstaged, hmade, rfl⟩ := h
  have hconverts := hmade.touched
  have hcleanUp := d.touched_cleanUp made
  -- all three changes are told in the terms of the tree before them
  rw [Document.ways_congr hstaged.touched.cwd, hstaged.touched.cwd] at hconverts
  rw [hconverts.cwd, hstaged.touched.cwd] at hcleanUp
  refine (hstaged.touched.mono ?_ (Set.Subset.refl _)).trans
    ((hconverts.mono ?_ (Set.Subset.refl _)).trans (hcleanUp.mono ?_ (Set.empty_subset _)))
  · exact Set.singleton_subset_iff.mpr (Or.inl rfl)
  · exact Set.singleton_subset_iff.mpr (Or.inr rfl)
  · exact Set.singleton_subset_iff.mpr (Or.inl rfl)

/-- A step changes no files but those of the document, and makes no directories but those on the
ways to them. -/
theorem touched_step (plan : Plan) (t : Task σ) (w : World σ) :
    Touched (t.document.places w.files.cwd) (t.document.ways w.files) w.files
      (t.step plan w).2.files := by
  rcases step_cases plan t w with ⟨_, _, heq, hends⟩ | ⟨_, _, heq, _, _, hwaits⟩
  · rw [heq]
    exact hends.touched
  · rw [heq]
    exact hwaits.touched.mono (Set.singleton_subset_iff.mpr (Or.inl rfl)) (Set.Subset.refl _)

end Task

end Intake
