import Intake.Proofs.Files.Grounded
import Intake.Proofs.Run.Moments
import Intake.Proofs.Run.Results

/-!
# Results that survive a failure

A result is written to a temporary file, which takes the place of an earlier result in one step.
All that can fail comes before that step, and what comes after it is only the cleaning up of the
staged file. So work on a document that does not end well leaves an earlier result as it was, if
the staged file does not stand in its place.
-/

namespace Intake

open Files

/-! ## Writing a result -/

/-- What holds after a result was written to a path: it is there, complete, and no other file of the
tree has changed. -/
structure Output.Replaced (o : Output) (p : Path) (before after : FileSystem) : Prop where
  read : after.read p = .ok o.toJson.pretty.toUTF8
  touched : Touched {p.location before.cwd} (before.wayTo ((p.parent?).getD ⟨"."⟩)) before after

/-- What holds after a result could not be written to a path: no file of the tree has changed, at
most directories on the way are new, and the path leads to what it led to. -/
structure Output.Spared (p : Path) (before after : FileSystem) : Prop where
  touched : Touched ∅ (before.wayTo ((p.parent?).getD ⟨"."⟩)) before after
  read : ∀ bytes, before.read p = .ok bytes → after.read p = .ok bytes
  locate : ∀ loc, before.locate p = .ok loc →
    after.locate p = .ok loc ∧ after.sight? loc = before.sight? loc

namespace Output

variable {o : Output} {p : Path} {struck : Option Fault} {fs fs' : FileSystem}

theorem replaced_of_write (h : o.write fs p struck = (.ok (), fs')) : Replaced o p fs fs' := by
  have htouched := (FileSystem.touched_publish_ok (congrArg Prod.fst h)).1
  have hread := read_of_write (write_of_ok h)
  rw [write] at h
  rw [h] at htouched
  exact ⟨hread, htouched⟩

theorem spared_of_write {f : Fault} (h : o.write fs p struck = (.error f, fs')) :
    Spared p fs fs' := by
  have htouched := FileSystem.touched_publish_error (congrArg Prod.fst h)
  rw [write] at h
  rw [h] at htouched
  have hlater := (FileSystem.Later.refl fs).touched htouched
  have hcontent (loc : Location) : fs'.content? loc = fs.content? loc :=
    htouched.contents loc (Set.notMem_empty loc)
  refine ⟨htouched, ?_, ?_⟩
  · intro bytes hread
    exact hlater.read hread (hcontent _)
  · intro loc hlocate
    refine ⟨hlater.locate hlocate (hcontent loc), ?_⟩
    apply hlater.sight? _ (hcontent loc)
    -- a path leads only to where something is
    rcases (FileSystem.locate_eq_ok.mp hlocate).2.2 with hdir | ⟨_, _, hfile⟩
    · rw [hdir]
      rfl
    · rw [hfile]
      rfl

end Output

namespace Document

variable {σ : Type} {d : Document σ} {plan : Plan} {w : World σ}

/-! ## Work without a result -/

/-- A staged document of which no result was made has all files as they were. -/
theorem touched_convert {window : Time.Window} {fs : FileSystem}
    (h : ∀ n, (d.convert plan window fs).1 ≠ .finished (.ok n)) :
    Touched ∅ (d.ways fs) fs (d.convert plan window fs).2 := by
  rw [convert] at h ⊢
  cases hprocess : plan.processor fs d.stagingPath d.locator with
  | brokeDown message => exact .refl fs
  | failed f => exact .refl fs
  | elements ps =>
      rw [hprocess] at h
      simp only at h ⊢
      cases hwrite : (d.output window (plan.conditions.clock d.locator) ps).write fs d.outputPath
          (plan.conditions.strike d.locator) with
      | mk r fs' =>
          cases r with
          | ok u =>
              rw [hwrite] at h
              exact absurd rfl (h ps.length)
          | error f =>
              have htouched := (Output.spared_of_write hwrite).touched
              exact htouched.mono (Set.Subset.refl _) (d.wayTo_outputPath fs)

theorem Fetched.touched {d' : Document σ} {w' : World σ} (h : Fetched d w d' w') :
    Touched {d.stagingPlace w.files.cwd} (d.ways w.files) w.files w'.files := by
  cases hstaged : d.isStaged w.files with
  | true =>
      rw [(h.found hstaged).1]
      exact .refl w.files
  | false =>
      obtain ⟨_, _, _, _, _, htouched⟩ := h.downloaded hstaged
      exact htouched.mono (Set.Subset.refl _) Set.subset_union_left

/-- Where no result was made, no file has changed but the staged one. -/
theorem touched_ingest (h : ∀ n, (d.ingest plan w).1 ≠ .finished (.ok n)) :
    d.Akin (d.ingest plan w).2.1 ∧
      Touched {d.stagingPlace w.files.cwd} (d.ways w.files) w.files
        (d.ingest plan w).2.2.files := by
  unfold ingest at h ⊢
  cases hfetch : d.fetch w with
  | mk r rest =>
      obtain ⟨d₁, w₁⟩ := rest
      rw [hfetch] at h
      cases r with
      | error f =>
          have hmissed := fetch_error hfetch
          refine ⟨⟨hmissed.source, hmissed.settings⟩, ?_⟩
          exact hmissed.directories.mono (Set.empty_subset _) Set.subset_union_left
      | ok u =>
          have hfetched := fetch_ok hfetch
          have hakin₁ : d.Akin d₁ := ⟨hfetched.source, hfetched.settings⟩
          have hakin₂ := d₁.akin_findWindow w₁.remote
          simp only at h ⊢
          cases hwindow : d₁.findWindow w₁.remote with
          | mk r rest =>
              obtain ⟨d₂, remote⟩ := rest
              rw [hwindow] at h hakin₂
              have hakin := hakin₁.trans hakin₂
              cases r with
              | error f => exact ⟨hakin, hfetched.touched⟩
              | ok window =>
                  have hconvert := touched_convert h
                  rw [hakin.ways, ways_congr hfetched.cwd] at hconvert
                  refine ⟨hakin, hfetched.touched.trans ?_⟩
                  exact hconvert.mono (Set.empty_subset _) (Set.Subset.refl _)

/-- **Unprocessed documents.** Whatever the source answers and the processor does, work on a
document that does not end with a result changes no file but the staged one. -/
theorem touched_work (h : ∀ locator n, (d.work plan w).1 ≠ .finished (.processed locator n)) :
    Touched {d.stagingPlace w.files.cwd} (d.ways w.files) w.files (d.work plan w).2.files := by
  unfold work at h ⊢
  by_cases hfinished : d.isFinished plan w.files = true
  · rw [if_pos hfinished]
    exact (d.touched_cleanUp w.files).mono (Set.Subset.refl _) (Set.empty_subset _)
  · rw [if_neg hfinished] at h ⊢
    have hingest := @touched_ingest σ d plan w
    cases hattempt : d.ingest plan w with
    | mk attempt rest =>
        obtain ⟨d', w'⟩ := rest
        rw [hattempt] at h hingest
        have hunprocessed (n : Nat) : attempt ≠ .finished (.ok n) := by
          rintro rfl
          exact h d'.locator n rfl
        obtain ⟨hakin, htouched⟩ := hingest hunprocessed
        have hcleanUp := d.touched_cleanUp w'.files
        rw [htouched.cwd, ← hakin.cleanUp] at hcleanUp
        exact htouched.trans (hcleanUp.mono (Set.Subset.refl _) (Set.empty_subset _))

/-! ## Earlier results -/

/-- What holds of an earlier result that was left alone: the place of the result has the content that
it had, and what is read by its path is the same. Only if the output directory is not grounded may
the path come to lead to that place. -/
structure KeepsResult (d : Document σ) (before after : FileSystem) : Prop where
  content : after.content? (d.outputPlace before.cwd) = before.content? (d.outputPlace before.cwd)
  read : ∀ bytes, before.read d.outputPath = .ok bytes → after.read d.outputPath = .ok bytes
  grounded : before.Grounded d.settings.outputDir →
    ∀ bytes, after.read d.outputPath = .ok bytes → before.read d.outputPath = .ok bytes

theorem keepsResult_of_touched {before after : FileSystem} {dirs : Set Location}
    (hplace : d.stagingPlace before.cwd ≠ d.outputPlace before.cwd)
    (h : Touched {d.stagingPlace before.cwd} dirs before after) : KeepsResult d before after := by
  have hlater := (FileSystem.Later.refl before).touched h
  have hname := ordinaryName_outputName d.locator
  have hcontent : after.content? (d.outputPlace before.cwd) =
      before.content? (d.outputPlace before.cwd) := by
    apply h.contents
    intro hmem
    exact hplace (Set.mem_singleton_iff.mp hmem).symm
  refine ⟨hcontent, ?_, ?_⟩
  · intro bytes hread
    exact hlater.read hread hcontent
  · intro hgrounded bytes hread
    rw [outputPath] at hread ⊢
    obtain ⟨hcheck, hshort, hbytes⟩ :=
      (FileSystem.read_join (hgrounded.later hlater) hname).mp hread
    rw [hlater.cwd] at hbytes
    exact (FileSystem.read_join hgrounded hname).mpr
      ⟨hcheck, hshort, hcontent.symm.trans hbytes⟩

/-- **No failure damages a result.** A result is written completely, or the tree keeps every file and
has no new one, also when a fault strikes while the result is written. So if the staged file stands
elsewhere, work on a document that is skipped, fails or breaks down leaves the earlier result, or
its absence, as it was. -/
theorem results_survive :
    (∀ (o : Output) (p : Path) (struck : Option Fault) (fs : FileSystem),
      match o.write fs p struck with
      | (.ok (), fs') => Output.Replaced o p fs fs'
      | (.error _, fs') => Output.Spared p fs fs') ∧
    ∀ (d : Document σ) (plan : Plan) (w : World σ),
      d.stagingPlace w.files.cwd ≠ d.outputPlace w.files.cwd →
      (∀ locator n, (d.work plan w).1 ≠ .finished (.processed locator n)) →
      KeepsResult d w.files (d.work plan w).2.files := by
  constructor
  · intro o p struck fs
    cases h : o.write fs p struck with
    | mk r fs' =>
        cases r with
        | ok u => exact Output.replaced_of_write h
        | error f => exact Output.spared_of_write h
  · intro d plan w hplace hunprocessed
    exact keepsResult_of_touched hplace (touched_work hunprocessed)

/-! ## A result that is found later -/

/-- A document with new content. -/
def renewed (outputDir : String) : Document Unit :=
  .ofSource (.within ⟨"d"⟩ ⟨outputDir⟩) (.steady "x" (.ok ⟨[], .ok "new".toUTF8⟩))

/-- Work that breaks down as soon as the content is staged. -/
def brokenPlan : Plan := ⟨fun _ _ _ => .brokeDown "gone", .steady .epoch, true⟩

/-- A world with an earlier result of the document. -/
def earlierResult : World Unit := ⟨⟨.dir [("o", .dir [("x.json", .file "old".toUTF8)])], []⟩, ()⟩

theorem unprocessed_of_processed? {ending : Ending Outcome} (h : processed? ending = none)
    (locator : String) (n : Nat) : ending ≠ .finished (.processed locator n) := by
  rintro rfl
  cases h

theorem results_survive_brokenPlan :
    processed? ((renewed "o").work brokenPlan earlierResult).1 = none ∧
      ((renewed "o").work brokenPlan earlierResult).2.files.read (renewed "o").outputPath =
        .ok "old".toUTF8 := by
  have hplace : (renewed "o").stagingPlace [] ≠ (renewed "o").outputPlace [] := by decide +kernel
  have hbroken : processed? ((renewed "o").work brokenPlan earlierResult).1 = none := by
    decide +kernel
  have hkeeps := (@results_survive Unit).2 (renewed "o") brokenPlan earlierResult hplace
    (unprocessed_of_processed? hbroken)
  exact ⟨hbroken, hkeeps.read _ (by rfl)⟩

/-- A result can be found by its path only after the work broke down, if the path goes up from the
download directory, which was not there before. -/
theorem result_found_after_failure :
    ¬∀ (d : Document Unit) (plan : Plan) (w : World Unit),
      d.stagingPlace w.files.cwd ≠ d.outputPlace w.files.cwd →
      (∀ locator n, (d.work plan w).1 ≠ .finished (.processed locator n)) →
      ∀ bytes, (d.work plan w).2.files.read d.outputPath = .ok bytes →
        w.files.read d.outputPath = .ok bytes := by
  intro h
  have hplace : (renewed "d/../o").stagingPlace [] ≠ (renewed "d/../o").outputPlace [] := by
    decide +kernel
  have hbroken : processed? ((renewed "d/../o").work brokenPlan earlierResult).1 = none := by
    decide +kernel
  have hbefore : earlierResult.files.isFile (renewed "d/../o").outputPath = false := by
    decide +kernel
  have hread := h (renewed "d/../o") brokenPlan earlierResult hplace
    (unprocessed_of_processed? hbroken) "old".toUTF8 (by rfl)
  obtain ⟨loc, hlocate, hfile⟩ := FileSystem.read_eq_ok.mp hread
  rw [FileSystem.isFile_iff.mpr ⟨loc, _, hlocate, hfile⟩] at hbefore
  cases hbefore

end Document

end Intake
