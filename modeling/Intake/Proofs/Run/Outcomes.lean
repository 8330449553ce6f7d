import Intake.Proofs.Files.Aside
import Intake.Proofs.Run.Independence
import Intake.Proofs.Run.Survival

/-!
# Outcomes and the files of results

A document is skipped if there is something at the path of its result, and an attempt at it leaves
something new there only if it was processed. Other documents have nothing to do with that place,
and the path leads to it at all times. So at the end of the work of a run there is something at the
path of a result if and only if its document did not fail.
-/

namespace Intake

open Files

variable {σ : Type}

/-- A processor that never breaks down. -/
def Processor.Lasting (processor : Processor) : Prop :=
  ∀ fs p locator message, processor fs p locator ≠ .brokeDown message

namespace Document

variable {d d' : Document σ} {plan : Plan} {before fs : FileSystem} {o : Outcome}

/-! ## The end of an attempt -/

/-- What the end of an attempt leaves behind: the result if the document was processed, and else
every file but the staged one as it was. -/
structure Leaves (d : Document σ) (before : FileSystem) (o : Outcome) (after : FileSystem) :
    Prop where
  attempted : o.isSkipped = false
  processed : o.isProcessed = true → d.hasOutput after = true
  unprocessed : o.isProcessed = false →
    Touched {d.stagingPlace before.cwd} (d.ways before) before after

theorem Leaves.of_akin {after : FileSystem} (hakin : d.Akin d') (h : Leaves d' before o after) :
    Leaves d before o after where
  attempted := h.attempted
  processed := by
    have hprocessed := h.processed
    rwa [hasOutput, hakin.outputPath] at hprocessed
  unprocessed := by
    have hunprocessed := h.unprocessed
    rwa [hakin.ways, stagingPlace, hakin.stagingPath] at hunprocessed

theorem Akin.hasOutput (hakin : d.Akin d') (fs : FileSystem) :
    d'.hasOutput fs = d.hasOutput fs := by
  rw [Document.hasOutput, Document.hasOutput, hakin.outputPath]

/-- The cleaning up leaves a result that is not the staged file. -/
theorem hasOutput_cleanUp (hplace : d.stagingPlace fs.cwd ≠ d.outputPlace fs.cwd)
    (hfile : fs.isFile d.outputPath = true) : d.hasOutput (d.cleanUp fs) = true := by
  have htouched := d.touched_cleanUp fs
  have hcontent : (d.cleanUp fs).content? (d.outputPlace fs.cwd) =
      fs.content? (d.outputPlace fs.cwd) := by
    apply htouched.contents
    intro hmem
    exact hplace (Set.mem_singleton_iff.mp hmem).symm
  have hthere : ((d.cleanUp fs).content? (d.outputPath.location fs.cwd)).isSome = true := by
    rw [← outputPlace, hcontent]
    exact FileSystem.content?_of_isFile hfile
  have hafter := FileSystem.isFile_mono htouched.cwd htouched.kept hthere hfile
  obtain ⟨loc, _, hlocate, _⟩ := FileSystem.isFile_iff.mp hafter
  exact FileSystem.exists?_iff.mpr ⟨loc, hlocate⟩

end Document

namespace Task

variable {plan : Plan} {d : Document σ} {t t' : Task σ} {w w' : World σ} {before : FileSystem}
  {o : Outcome}

/-- An attempt that came to a fault leaves every file but the staged one as it was. -/
theorem leaves_finish {f : Fault} (hwaits : Waits d before w.files)
    (h : finish d (.finished (.error f)) w = (.ended (.finished o), w')) :
    d.Leaves before o w'.files := by
  rw [finish_eq] at h
  cases h
  have hcleanUp := d.touched_cleanUp w.files
  rw [hwaits.touched.cwd] at hcleanUp
  refine ⟨rfl, ?_, fun _ => ?_⟩
  · intro hprocessed
    cases hprocessed
  · exact hwaits.touched.trans (hcleanUp.mono (Set.Subset.refl _) (Set.empty_subset _))

theorem leaves_deliver {window : Time.Window}
    (hplace : d.stagingPlace before.cwd ≠ d.outputPlace before.cwd)
    (hwaits : Waits d before w.files)
    (h : deliver plan d window w = (.ended (.finished o), w')) : d.Leaves before o w'.files := by
  have hcwd := hwaits.touched.cwd
  rw [deliver_eq] at h
  cases hconvert : d.convert plan window w.files with
  | mk attempt made =>
      rw [hconvert] at h
      cases attempt with
      | brokeDown message => cases h
      | finished r =>
          cases r with
          | ok n =>
              obtain ⟨ps, _, _, hwrite⟩ := Document.convert_finished hconvert
              obtain ⟨hcwd', _, hfile, _⟩ := Document.written_result hwrite
              cases h
              refine ⟨rfl, fun _ => ?_, ?_⟩
              · apply Document.hasOutput_cleanUp _ hfile
                rw [hcwd', hcwd]
                exact hplace
              · intro hunprocessed
                cases hunprocessed
          | error f =>
              have hmade : Touched ∅ (d.ways w.files) w.files made := by
                have hne : ∀ n, (d.convert plan window w.files).1 ≠ .finished (.ok n) := by
                  intro n hok
                  rw [hconvert] at hok
                  cases hok
                have htouched := Document.touched_convert hne
                rwa [hconvert] at htouched
              rw [Document.ways_congr hcwd] at hmade
              have hcleanUp := d.touched_cleanUp made
              rw [hmade.cwd, hcwd] at hcleanUp
              have hcleaned : Touched {d.stagingPlace before.cwd} (d.ways before) made
                  (d.cleanUp made) :=
                hcleanUp.mono (Set.Subset.refl _) (Set.empty_subset _)
              cases h
              refine ⟨rfl, ?_, fun _ => ?_⟩
              · intro hprocessed
                cases hprocessed
              · exact hwaits.touched.trans
                  ((hmade.mono (Set.empty_subset _) (Set.Subset.refl _)).trans hcleaned)

theorem leaves_proceed (hplace : d.stagingPlace before.cwd ≠ d.outputPlace before.cwd)
    (hwaits : Waits d before w.files)
    (h : proceed plan d w = (.ended (.finished o), w')) : d.Leaves before o w'.files := by
  rw [proceed] at h
  split at h
  · exact leaves_deliver hplace hwaits h
  · cases h

/-- Whether a task finds when it is taken up that there is nothing to do. -/
def FindsResult (plan : Plan) (fs : FileSystem) : Task σ → Prop
  | .fresh d => d.isFinished plan fs = true
  | .downloading _ | .probing _ => False

/-- A task ends because there is nothing to do, or after an attempt. -/
theorem end_cases
    (hplace : t.document.stagingPlace w.files.cwd ≠ t.document.outputPlace w.files.cwd)
    (h : t.step plan w = (.ended (.finished o), w')) :
    (t.FindsResult plan w.files ∧ o.isSkipped = true ∧
        Touched {t.document.stagingPlace w.files.cwd} ∅ w.files w'.files) ∨
      (¬t.FindsResult plan w.files ∧ t.document.Leaves w.files o w'.files) := by
  cases t with
  | fresh d =>
      rw [step] at h
      split at h
      · next hfinished =>
          cases h
          exact Or.inl ⟨hfinished, rfl, d.touched_cleanUp w.files⟩
      · next hfinished =>
          refine Or.inr ⟨hfinished, ?_⟩
          split at h
          · have hakin : d.Akin d.held := ⟨rfl, rfl⟩
            have hleaves : d.held.Leaves w.files o w'.files :=
              leaves_proceed (show d.held.stagingPlace w.files.cwd ≠ d.held.outputPlace w.files.cwd
                from hplace) (Waits.refl d.held w.files) h
            exact hleaves.of_akin hakin
          · cases h
  | downloading d =>
      refine Or.inr ⟨not_false, ?_⟩
      have hakin := d.akin_receive w.files (d.source.download w.remote).1
      have hwaits := waits_receive d w.files (d.source.download w.remote).1
      rw [step] at h
      simp only at h
      cases hreceive : d.receive w.files (d.source.download w.remote).1 with
      | mk r rest =>
          obtain ⟨d', files⟩ := rest
          rw [hreceive] at h hakin hwaits
          have hwaits' : Waits d' w.files files := hwaits.of_akin hakin.symm
          cases r with
          | error f => exact (leaves_finish hwaits' h).of_akin hakin
          | ok u =>
              refine (leaves_proceed ?_ hwaits' h).of_akin hakin
              rw [Document.stagingPlace, Document.outputPlace, hakin.stagingPath,
                hakin.outputPath]
              exact hplace
  | probing d =>
      refine Or.inr ⟨not_false, ?_⟩
      have hakin := d.akin_learn (d.source.probe w.remote).1
      rw [step] at h
      simp only at h
      cases hlearn : d.learn (d.source.probe w.remote).1 with
      | mk r d' =>
          rw [hlearn] at h hakin
          have hwaits : Waits d' w.files w.files := .refl d' w.files
          cases r with
          | error f =>
              simp only at h
              have hleaves : d'.Leaves w.files o w'.files :=
                leaves_finish (w := ⟨w.files, (d.source.probe w.remote).2⟩) hwaits h
              exact hleaves.of_akin hakin
          | ok u =>
              simp only at h
              refine (leaves_deliver (w := ⟨w.files, (d.source.probe w.remote).2⟩) ?_ hwaits
                h).of_akin hakin
              rw [Document.stagingPlace, Document.outputPlace, hakin.stagingPath,
                hakin.outputPath]
              exact hplace

/-- A task that waits has something to do. -/
theorem not_findsResult_of_waits (h : t.step plan w = (.waiting t', w')) :
    ¬t.FindsResult plan w.files := by
  cases t with
  | fresh d =>
      intro hfinished
      rw [step, if_pos (show d.isFinished plan w.files = true from hfinished)] at h
      cases h
  | downloading d => exact not_false
  | probing d => exact not_false

/-- Where the processor never breaks down, no step does. -/
theorem step_ne_brokeDown (hlasting : plan.processor.Lasting) {message : String} :
    t.step plan w ≠ (.ended (.brokeDown message), w') := by
  have hdeliver (d : Document σ) (window : Time.Window) (w : World σ) :
      deliver plan d window w ≠ (.ended (.brokeDown message), w') := by
    intro h
    rw [deliver_eq, Document.convert] at h
    cases hverdict : plan.processor w.files d.stagingPath d.locator with
    | brokeDown message' => exact hlasting _ _ _ _ hverdict
    | failed f =>
        rw [hverdict] at h
        cases h
    | elements ps =>
        rw [hverdict] at h
        simp only at h
        split at h <;> cases h
  have hproceed (d : Document σ) (w : World σ) :
      proceed plan d w ≠ (.ended (.brokeDown message), w') := by
    intro h
    rw [proceed] at h
    split at h
    · exact hdeliver _ _ _ h
    · cases h
  intro h
  cases t with
  | fresh d =>
      rw [step] at h
      split at h
      · cases h
      · split at h
        · exact hproceed _ _ h
        · cases h
  | downloading d =>
      rw [step] at h
      simp only at h
      split at h
      · cases h
      · exact hproceed _ _ h
  | probing d =>
      rw [step] at h
      simp only at h
      split at h
      · cases h
      · exact hdeliver _ _ _ h

end Task

/-! ## Results of documents side by side -/

/-- Documents whose results have places of their own, to which the paths lead at all times. -/
structure Spread (s : Settings) (ds : List (Document σ)) (before : FileSystem) : Prop where
  initial : ∀ d ∈ ds, d.renew = d ∧ d.settings = s
  grounded : before.Grounded s.outputDir
  ready : before.Ready s.downloadDir
  notBelow : ¬s.outputDir.location before.cwd <+: s.downloadDir.location before.cwd
  apart : ∀ d ∈ ds, ∀ d' ∈ ds, d.stagingPlace before.cwd ≠ d'.outputPlace before.cwd
  results : (ds.map fun d => Document.outputName d.locator).Nodup

/-- A document that came to its outcome: it was skipped if its result was there, there is a result
now if it was processed, and else the place of the result is as it was. -/
structure Recorded (before fs : FileSystem) (d : Document σ) (o : Outcome) : Prop where
  named : o.locator = d.locator
  skipped : o.isSkipped = d.hasOutput before
  processed : o.isProcessed = true → d.hasOutput fs = true
  unprocessed : o.isProcessed = false →
    fs.sight? (d.outputPlace before.cwd) = before.sight? (d.outputPlace before.cwd)

/-- What holds while documents are worked on: each is finished or has a task, the place of a result
is as it was until its document is finished, and work has begun only where there was no result. -/
structure Underway (ds : List (Document σ)) (before : FileSystem)
    (done : List (Document σ × Outcome)) (tasks : List (Task σ)) (fs : FileSystem) : Prop where
  later : before.Later fs
  everyone : (done.map (·.1) ++ tasks.map (·.document.renew)).Perm ds
  begun : ∀ t ∈ tasks, t.Begun → t.document.hasOutput before = false
  waiting : ∀ t ∈ tasks, fs.sight? (t.document.outputPlace before.cwd) =
    before.sight? (t.document.outputPlace before.cwd)
  recorded : ∀ a ∈ done, Recorded before fs a.1 a.2

section Steps

variable {s : Settings} {ds : List (Document σ)} {plan : Plan} {before fs fs' : FileSystem}
  {done : List (Document σ × Outcome)} {tasks front back : List (Task σ)} {t t' : Task σ}
  {d d' : Document σ} {w w' : World σ} {o : Outcome} {files : Set Location}

theorem eq_of_passes_empty {p : Path} {cwd loc : Location} (htext : p.text = "")
    (h : p.Passes cwd loc) : loc = p.location cwd := by
  obtain ⟨front, back, hnames, rfl⟩ := h
  have hnil : p.names = [] := by rw [Path.names_eq, htext]; rfl
  rw [hnil, List.nil_eq, List.append_eq_nil_iff] at hnames
  rw [Path.location, hnil, hnames.1]

namespace Spread

/-- Directories that are made on the way to the files of a document are not made at the place of
a result. -/
theorem dir_of_ways (h : Spread s ds before) (hlater : before.Later fs) (hd : d.settings = s)
    (hd' : d'.settings = s) (hway : d'.outputPlace before.cwd ∈ d.ways fs) :
    fs.sight? (d'.outputPlace before.cwd) = some .directory := by
  rw [Document.ways, hd] at hway
  rcases hway with hway | hway
  · rcases h.ready with hempty | hdir
    · have heq := eq_of_passes_empty hempty hway
      rw [hlater.cwd, d'.outputPlace_eq, hd'] at heq
      exact absurd (heq ▸ List.prefix_append _ _) h.notBelow
    · exact FileSystem.dir_of_passes (FileSystem.isDir_mono hlater.cwd hlater.kept hdir) hway
  · refine (FileSystem.dir_or_above_of_passes (h.grounded.later hlater) hway).resolve_right ?_
    rw [d'.outputPlace_eq, hd', hlater.cwd]
    exact Document.Placed.not_concat_prefix

theorem sight?_outputPlace (h : Spread s ds before) (hlater : before.Later fs)
    (hd : d.settings = s) (hd' : d'.settings = s) (htouched : Touched files (d.ways fs) fs fs')
    (hfiles : d'.outputPlace before.cwd ∉ files) :
    fs'.sight? (d'.outputPlace before.cwd) = fs.sight? (d'.outputPlace before.cwd) := by
  by_cases hway : d'.outputPlace before.cwd ∈ d.ways fs
  · have hdir := h.dir_of_ways hlater hd hd' hway
    rw [hdir]
    exact htouched.kept _ hdir
  · exact htouched.sight? hfiles hway

/-- Whether there is a result hangs on its place alone. -/
theorem hasOutput_congr (h : Spread s ds before) (hlater : before.Later fs)
    (hlater' : before.Later fs') (hd : d.settings = s)
    (hsight : fs'.sight? (d.outputPlace before.cwd) = fs.sight? (d.outputPlace before.cwd)) :
    d.hasOutput fs' = d.hasOutput fs := by
  have hgrounded : before.Grounded d.settings.outputDir := hd ▸ h.grounded
  rw [← hlater.cwd] at hsight
  exact FileSystem.exists?_join_congr (hgrounded.later hlater) (hgrounded.later hlater')
    (Document.ordinaryName_outputName d.locator) (hlater'.cwd.trans hlater.cwd.symm) hsight

theorem staging_ne (h : Spread s ds before) (hd : d.Among s ds) (hd' : d'.Among s ds) :
    d.stagingPlace before.cwd ≠ d'.outputPlace before.cwd :=
  h.apart d.renew hd.1 d'.renew hd'.1

/-- The result of one document is not among the files of another one. -/
theorem outputPlace_notMem (h : Spread s ds before) (hd : d.Among s ds) (hd' : d'.Among s ds)
    (hne : d'.locator ≠ d.locator) : d'.outputPlace before.cwd ∉ d.places before.cwd := by
  rintro (heq | heq)
  · exact h.staging_ne hd hd' heq.symm
  · rw [Set.mem_singleton_iff, d.outputPlace_eq, d'.outputPlace_eq, hd.2, hd'.2] at heq
    have hname := List.singleton_inj.mp (List.append_cancel_left heq)
    have hrenew : d'.renew = d.renew := List.inj_on_of_nodup_map h.results hd'.1 hd.1 hname
    apply hne
    rw [← d'.akin_renew.locator, hrenew, d.akin_renew.locator]

/-- Only the locators and the extensions of the staged files matter. -/
theorem of_names {τ : Type} {ds' : List (Document τ)} (h : Spread s ds before)
    (hinitial : ∀ d ∈ ds', d.renew = d ∧ d.settings = s)
    (hnames : (ds'.map fun d => (d.locator, d.source.extension)).Perm
      (ds.map fun d => (d.locator, d.source.extension))) : Spread s ds' before where
  initial := hinitial
  grounded := h.grounded
  ready := h.ready
  notBelow := h.notBelow
  apart d hd d' hd' := by
    have hsame : ∀ e ∈ ds', ∃ e₀ ∈ ds, e.stagingPath = e₀.stagingPath ∧
        e.outputPath = e₀.outputPath := by
      intro e he
      have hmem := hnames.mem_iff.mp
        (List.mem_map_of_mem (f := fun d => (d.locator, d.source.extension)) he)
      obtain ⟨e₀, he₀, heq⟩ := List.mem_map.mp hmem
      obtain ⟨hlocator, hextension⟩ := Prod.mk.inj heq
      refine ⟨e₀, he₀, ?_, ?_⟩
      · rw [Document.stagingPath, Document.stagingPath, (hinitial e he).2, (h.initial e₀ he₀).2,
          hlocator, hextension]
      · rw [Document.outputPath, Document.outputPath, (hinitial e he).2, (h.initial e₀ he₀).2,
          hlocator]
    obtain ⟨e, he, hstaging, _⟩ := hsame d hd
    obtain ⟨e', he', _, houtput⟩ := hsame d' hd'
    rw [Document.stagingPlace, Document.outputPlace, hstaging, houtput]
    exact h.apart e he e' he'
  results := by
    have houtputs := hnames.map fun names => Document.outputName names.1
    rw [List.map_map, List.map_map] at houtputs
    exact houtputs.nodup_iff.mpr h.results

end Spread

namespace Recorded

/-- A document that came to its outcome failed if and only if there is no result. -/
theorem hasOutput_eq (hspread : Spread s ds before) (hlater : before.Later fs)
    (hd : d.settings = s) (h : Recorded before fs d o) :
    d.hasOutput fs = o.failure?.isNone := by
  cases o with
  | processed locator n => exact h.processed rfl
  | skipped locator =>
      rw [hspread.hasOutput_congr (.refl before) hlater hd (h.unprocessed rfl), ← h.skipped]
      rfl
  | failed locator f =>
      rw [hspread.hasOutput_congr (.refl before) hlater hd (h.unprocessed rfl), ← h.skipped]
      rfl

theorem other (hspread : Spread s ds before) (hlater : before.Later fs)
    (hlater' : before.Later fs') (hd : d.settings = s)
    (hsight : fs'.sight? (d.outputPlace before.cwd) = fs.sight? (d.outputPlace before.cwd))
    (h : Recorded before fs d o) : Recorded before fs' d o where
  named := h.named
  skipped := h.skipped
  processed hprocessed := by
    rw [hspread.hasOutput_congr hlater hlater' hd hsight]
    exact h.processed hprocessed
  unprocessed hunprocessed := hsight.trans (h.unprocessed hunprocessed)

end Recorded

namespace Underway

variable (hspread : Spread s ds before)

include hspread

theorem among_task (h : Underway ds before done tasks fs) (ht : t ∈ tasks) :
    t.document.Among s ds :=
  among_task_of_everyone hspread.initial h.everyone ht

theorem among_done (h : Underway ds before done tasks fs) {a : Document σ × Outcome}
    (ha : a ∈ done) : a.1.Among s ds :=
  among_done_of_everyone hspread.initial h.everyone ha

/-- A task finds its result if there was one at first, and then only when it is taken up. -/
theorem findsResult_iff (hreprocess : plan.reprocess = false)
    (h : Underway ds before done tasks fs) (ht : t ∈ tasks) :
    t.FindsResult plan fs ↔ t.document.hasOutput before = true := by
  cases t with
  | fresh d =>
      have hd := h.among_task hspread ht
      have hsame := hspread.hasOutput_congr (.refl before) h.later hd.2 (h.waiting _ ht)
      rw [Task.FindsResult, Document.isFinished, hreprocess, Bool.not_false, Bool.true_and]
      exact Bool.eq_iff_iff.mp hsame
  | downloading d =>
      rw [h.begun _ ht trivial]
      exact iff_of_false not_false Bool.false_ne_true
  | probing d =>
      rw [h.begun _ ht trivial]
      exact iff_of_false not_false Bool.false_ne_true

variable (plan) in
/-- A step of one task keeps what holds of the other ones. -/
theorem others (h : Underway ds before done (front ++ t :: back) w.files) :
    before.Later (t.step plan w).2.files ∧
      (∀ t₀ ∈ front ++ back,
        (t.step plan w).2.files.sight? (t₀.document.outputPlace before.cwd) =
          before.sight? (t₀.document.outputPlace before.cwd)) ∧
      ∀ a ∈ done, Recorded before (t.step plan w).2.files a.1 a.2 := by
  have ht := h.among_task hspread (t := t) (by simp)
  have htouched := t.touched_step plan w
  rw [h.later.cwd] at htouched
  have hlater := h.later.touched htouched
  obtain ⟨hfirst, hsecond⟩ :=
    locator_ne_of_everyone (Document.nodup_locators hspread.results) h.everyone
  refine ⟨hlater, ?_, ?_⟩
  · intro t₀ ht₀
    have hmem : t₀ ∈ front ++ t :: back := Moment.mem_turn.mpr (Or.inr ht₀)
    have hd₀ := h.among_task hspread hmem
    have hplace := hspread.outputPlace_notMem ht hd₀ (hfirst t₀ ht₀)
    exact (hspread.sight?_outputPlace h.later ht.2 hd₀.2 htouched hplace).trans
      (h.waiting t₀ hmem)
  · intro a ha
    have hd₀ := h.among_done hspread ha
    have hplace := hspread.outputPlace_notMem ht hd₀ (hsecond a ha)
    exact (h.recorded a ha).other hspread h.later hlater hd₀.2
      (hspread.sight?_outputPlace h.later ht.2 hd₀.2 htouched hplace)

theorem goOn (hreprocess : plan.reprocess = false)
    (h : Underway ds before done (front ++ t :: back) w.files)
    (hstep : t.step plan w = (.waiting t', w')) :
    Underway ds before done (front ++ t' :: back) w'.files := by
  have hmem : t ∈ front ++ t :: back := by simp
  have ht := h.among_task hspread hmem
  obtain ⟨hlater, hwaiting, hrecorded⟩ := h.others plan hspread
  obtain ⟨hakin, _, hwaits⟩ := Task.waits_of_step hstep
  have hnone := mt (h.findsResult_iff hspread hreprocess hmem).mpr
    (Task.not_findsResult_of_waits hstep)
  rw [hstep] at hlater hwaiting hrecorded
  refine ⟨hlater, everyone_goOn hakin h.everyone, ?_, ?_, hrecorded⟩
  · intro t₀ ht₀ hbegun
    rcases Moment.mem_turn.mp ht₀ with rfl | ht₀
    · rw [hakin.hasOutput]
      exact Bool.not_eq_true _ ▸ hnone
    · exact h.begun t₀ (Moment.mem_turn.mpr (Or.inr ht₀)) hbegun
  · intro t₀ ht₀
    rcases Moment.mem_turn.mp ht₀ with rfl | ht₀
    · rw [Document.outputPlace, hakin.outputPath]
      refine (hspread.sight?_outputPlace h.later ht.2 ht.2 hwaits.touched ?_).trans
        (h.waiting t hmem)
      rw [h.later.cwd]
      exact fun heq => hspread.staging_ne ht ht (Set.mem_singleton_iff.mp heq).symm
    · exact hwaiting t₀ ht₀

theorem finish (hreprocess : plan.reprocess = false)
    (h : Underway ds before done (front ++ t :: back) w.files)
    (hstep : t.step plan w = (.ended (.finished o), w')) :
    Underway ds before (done ++ [(t.document.renew, o)]) (front ++ back) w'.files := by
  have hmem : t ∈ front ++ t :: back := by simp
  have ht := h.among_task hspread hmem
  obtain ⟨hlater, hwaiting, hrecorded⟩ := h.others plan hspread
  rw [hstep] at hlater hwaiting hrecorded
  have hplace : t.document.stagingPlace w.files.cwd ≠ t.document.outputPlace w.files.cwd := by
    rw [h.later.cwd]
    exact hspread.staging_ne ht ht
  -- where only the staged file has changed, the place of the result is as it was
  have hkept (htouched : Touched {t.document.stagingPlace w.files.cwd}
      (t.document.ways w.files) w.files w'.files) :
      w'.files.sight? (t.document.outputPlace before.cwd) =
        before.sight? (t.document.outputPlace before.cwd) := by
    refine (hspread.sight?_outputPlace h.later ht.2 ht.2 htouched ?_).trans (h.waiting t hmem)
    rw [← h.later.cwd]
    exact fun heq => hplace (Set.mem_singleton_iff.mp heq).symm
  have hfound := h.findsResult_iff hspread hreprocess hmem
  have hown : Recorded before w'.files t.document.renew o := by
    rcases Task.end_cases hplace hstep with ⟨hfinds, hskipped, htouched⟩ | ⟨hfinds, hleaves⟩
    · have hunprocessed : o.isProcessed = false := by
        cases o with
        | skipped locator => rfl
        | _ => cases hskipped
      refine ⟨Task.locator_of_step hstep, ?_, ?_, fun _ => ?_⟩
      · rw [hskipped]
        exact (hfound.mp hfinds).symm
      · intro hprocessed
        rw [hunprocessed] at hprocessed
        cases hprocessed
      · exact hkept (htouched.mono (Set.Subset.refl _) (Set.empty_subset _))
    · refine ⟨Task.locator_of_step hstep, ?_, hleaves.processed, fun hunprocessed => ?_⟩
      · rw [hleaves.attempted]
        exact (Bool.not_eq_true _ ▸ mt hfound.mpr hfinds).symm
      · exact hkept (hleaves.unprocessed hunprocessed)
  refine ⟨hlater, everyone_finish h.everyone, ?_, hwaiting, ?_⟩
  · intro t₀ ht₀
    exact h.begun t₀ (Moment.mem_turn.mpr (Or.inr ht₀))
  · intro a ha
    rcases List.mem_append.mp ha with ha | ha
    · exact hrecorded a ha
    · rw [List.mem_singleton.mp ha]
      exact hown

end Underway

end Steps

/-! ## Runs -/

namespace Moment

variable {s : Settings} {ds : List (Document σ)} {plan : Plan} {before : FileSystem} {bound : Nat}
  {m m' : Moment σ}

/-- A moment at which each document that is finished has come to its outcome. -/
def Recording (ds : List (Document σ)) (before : FileSystem) (m : Moment σ) : Prop :=
  ∃ done, m.outcomes = done.map (·.2) ∧ Underway ds before done m.tasks m.world.files

theorem Recording.next (hspread : Spread s ds before) (hreprocess : plan.reprocess = false)
    (hnext : Next plan bound m m') (h : Recording ds before m) : Recording ds before m' := by
  obtain ⟨done, houtcomes, h⟩ := h
  cases hnext with
  | takeUp _ =>
      refine ⟨done, houtcomes, ?_⟩
      rw [tasks_takeUp]
      exact h
  | @goOn front back t t' waiting w w' outcomes hstep =>
      rw [tasks, List.append_assoc, List.cons_append] at h
      refine ⟨done, houtcomes, ?_⟩
      rw [tasks, List.append_assoc, List.cons_append]
      exact h.goOn hspread hreprocess hstep
  | @finish front back t waiting w w' outcomes outcome hstep =>
      rw [tasks, List.append_assoc, List.cons_append] at h
      refine ⟨done ++ [(t.document.renew, outcome)], ?_, ?_⟩
      · rw [List.map_append, ← houtcomes]
        rfl
      · rw [tasks, List.append_assoc]
        exact h.finish hspread hreprocess hstep

theorem Recording.leads (hspread : Spread s ds before) (hreprocess : plan.reprocess = false)
    (hleads : Leads plan bound m m') (h : Recording ds before m) : Recording ds before m' :=
  hleads.invariant (fun _ _ hnext hm => hm.next hspread hreprocess hnext) h

/-- All documents wait at first. -/
theorem recording_start (hspread : Spread s ds before) {w : World σ} (hfiles : w.files = before) :
    Recording ds before ⟨[], ds, w, []⟩ := by
  refine ⟨[], rfl, ?_, everyone_start hspread.initial, ?_, ?_, ?_⟩
  · rw [hfiles]
    exact .refl before
  · intro t ht hbegun
    obtain ⟨d, _, rfl⟩ := List.mem_map.mp ht
    exact absurd hbegun not_false
  · intro t _
    rw [hfiles]
  · intro a ha
    cases ha

/-- Where the processor never breaks down, a run comes to an end at which nothing is left to do. -/
theorem leads_of_endsAs (hlasting : plan.processor.Lasting)
    {r : Ending (List Outcome) × World σ} (hends : EndsAs plan bound m r) (hm : m.outcomes = []) :
    ∃ os, r.1 = .finished os ∧ Leads plan bound m ⟨[], [], r.2, os⟩ := by
  cases hends with
  | @finished outcomes w hleads =>
      rw [hm, List.nil_append] at hleads
      exact ⟨outcomes, rfl, hleads⟩
  | brokeDown _ hstep => exact absurd hstep (Task.step_ne_brokeDown hlasting)

end Moment

namespace Connector

/-- Whether a run gets to its documents: the download directory can be made and the sources are
listed. -/
structure Enumerates (c : Connector σ) (w : World σ) (sources : List (Source σ)) (remote : σ) :
    Prop where
  prepared : (c.prepare w.files).1 = .ok ()
  listed : c.list w.remote = (.ok sources, remote)

/-- The outcomes of a run, in the order in which its documents came to them. -/
def outcomes (c : Connector σ) (processor : Processor) (conditions : Conditions)
    (schedule : Schedule) (w : World σ) : Ending (Except Fault (List Outcome)) :=
  match c.prepare w.files with
  | (.error f, _) => .finished (.error f)
  | (.ok (), files) =>
    match c.documents w.remote with
    | (.error f, _) => .finished (.error f)
    | (.ok ds, remote) =>
      ((Queue.ofDocuments ds).run (c.plan processor conditions) c.bound schedule 0
        ⟨files, remote⟩).1.map .ok

/-- A run reports the totals of its outcomes. -/
theorem run_eq_outcomes (c : Connector σ) (processor : Processor) (conditions : Conditions)
    (schedule : Schedule) (w : World σ) :
    (c.run processor conditions schedule w).1 =
      (c.outcomes processor conditions schedule w).map (·.map Summary.ofOutcomes) := by
  rw [run, workOn, outcomes]
  cases c.prepare w.files with
  | mk r files =>
      cases r with
      | error f => rfl
      | ok u =>
          simp only
          cases c.documents w.remote with
          | mk r remote =>
              cases r with
              | error f => rfl
              | ok ds =>
                  simp only
                  cases ((Queue.ofDocuments ds).run (c.plan processor conditions) c.bound schedule 0
                    ⟨files, remote⟩).1 with
                  | finished os => rfl
                  | brokeDown message => rfl

section Runs

variable {c : Connector σ} (processor : Processor) (conditions : Conditions) (schedule : Schedule)
  {w : World σ} {sources : List (Source σ)} {remote : σ}

/-- The work of a run that gets to its documents comes to an end at which nothing is left to do. -/
theorem Enumerates.leads (henum : c.Enumerates w sources remote) (hlasting : processor.Lasting) :
    ∃ os, c.outcomes processor conditions schedule w = .finished (.ok os) ∧
      Moment.Leads (c.plan processor conditions) c.bound
        ⟨[], sources.map (.ofSource c.settings), ⟨(c.prepare w.files).2, remote⟩, []⟩
        ⟨[], [], (c.workOn processor conditions schedule w).2, os⟩ := by
  have hdocuments : c.documents w.remote =
      (.ok (sources.map (.ofSource c.settings)), remote) := by
    rw [documents, henum.listed]
  have hwork := c.workOn_eq processor conditions schedule henum.prepared hdocuments
  have hplan : (c.plan processor conditions).processor.Lasting := hlasting
  obtain ⟨os, hending, hleads⟩ := Moment.leads_of_endsAs hplan
    (Moment.endsAs_run (Nat.le_max_left 1 _) schedule 0
      (Queue.ofDocuments (sources.map (.ofSource c.settings)))
      ⟨(c.prepare w.files).2, remote⟩ []) rfl
  refine ⟨os, ?_, ?_⟩
  · rw [outcomes, hdocuments]
    cases hprepared : c.prepare w.files with
    | mk r files =>
        have hok := henum.prepared
        rw [hprepared] at hok hending
        cases hok
        exact congrArg (Ending.map Except.ok) hending
  · rw [hwork]
    exact hleads

/-- **Outcomes and results.** When the work of a run is over, each document has come to its outcome,
with something at the path of its result unless it failed. -/
theorem recorded_workOn (henum : c.Enumerates w sources remote) (hlasting : processor.Lasting)
    (hreprocess : c.settings.reprocess = false)
    (hspread : Spread c.settings (sources.map (.ofSource c.settings)) (c.prepare w.files).2) :
    ∃ done, c.outcomes processor conditions schedule w = .finished (.ok (done.map (·.2))) ∧
      Underway (sources.map (.ofSource c.settings)) (c.prepare w.files).2 done []
        (c.workOn processor conditions schedule w).2.files := by
  obtain ⟨os, houtcomes, hleads⟩ := henum.leads processor conditions schedule hlasting
  obtain ⟨done, hdone, hunderway⟩ :=
    (Moment.recording_start hspread rfl).leads hspread hreprocess hleads
  exact ⟨done, hdone ▸ houtcomes, hunderway⟩

end Runs

end Connector

end Intake
