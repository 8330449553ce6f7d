import Intake.Proofs.Document.Extensions
import Intake.Proofs.Document.Fetch
import Intake.Proofs.Element.Processing
import Intake.Proofs.Run.Effects

/-!
# Results of processed documents

A document that was processed had a staged file, and the elements made of that file were
written as its result. The result is still there after the cleaning up unless the staged file
stood in the very same place and is not kept: then the cleaning up takes the result away.
-/

namespace Intake

open Files

namespace Document

variable {σ : Type} {d : Document σ} {plan : Plan} {w : World σ}

/-! ## What was processed -/

/-- A document whose window was found is otherwise the same. -/
theorem akin_findWindow (d : Document σ) (remote : σ) :
    Akin d (d.findWindow remote).2.1 := by
  rw [findWindow]
  split
  · exact .refl d
  · have hlearn := d.akin_learn (d.source.probe remote).1
    rw [probe]
    cases h : d.learn (d.source.probe remote).1 with
    | mk r d' =>
        rw [h] at hlearn
        cases r with
        | error f => simpa [h] using hlearn
        | ok u => simpa [h] using hlearn

theorem Akin.output {d d' : Document σ} (h : d.Akin d') (window : Time.Window)
    (now : Time.Instant) (ps : List Element.Paragraph) :
    d'.output window now ps = d.output window now ps := by
  rw [Document.output, Document.output, h.locator, h.stagingPath]

/-- What a result is made of: the elements that the processor made of the staged file. -/
structure MadeOf (d : Document σ) (plan : Plan) (staged : FileSystem) (o : Output) : Prop where
  locator : o.locator = d.locator
  there : staged.isFile d.stagingPath = true
  elements : plan.processor staged d.stagingPath d.locator = .elements o.elements

theorem convert_finished {window : Time.Window} {fs fs' : FileSystem} {n : Nat}
    (h : d.convert plan window fs = (.finished (.ok n), fs')) :
    ∃ ps, plan.processor fs d.stagingPath d.locator = .elements ps ∧ ps.length = n ∧
      (d.output window (plan.conditions.clock d.locator) ps).write fs d.outputPath =
        (.ok (), fs') := by
  rw [convert] at h
  split at h
  · cases h
  · cases h
  · next ps hps =>
      split at h
      · next fs'' hwrite =>
          cases h
          exact ⟨ps, hps, rfl, Output.write_of_ok hwrite⟩
      · cases h

theorem Fetched.cwd {d' : Document σ} {w' : World σ} (h : Fetched d w d' w') :
    w'.files.cwd = w.files.cwd := by
  cases hstaged : d.isStaged w.files with
  | true => rw [(h.found hstaged).1]
  | false =>
      obtain ⟨_, _, _, _, _, htouched⟩ := h.downloaded hstaged
      exact htouched.cwd

theorem ingest_finished {n : Nat} {d' : Document σ} {w' : World σ}
    (h : d.ingest plan w = (.finished (.ok n), d', w')) :
    d.Akin d' ∧ ∃ o staged, MadeOf d plan staged o ∧ staged.cwd = w.files.cwd ∧
      o.elements.length = n ∧ o.write staged d.outputPath = (.ok (), w'.files) := by
  unfold ingest at h
  split at h
  · simp at h
  · next d₁ w₁ hfetch =>
      have hfetched := fetch_ok hfetch
      have hakin₁ : d.Akin d₁ := ⟨hfetched.source, hfetched.settings⟩
      have hakin₂ := d₁.akin_findWindow w₁.remote
      split at h
      · simp at h
      · next window d₂ remote hwindow =>
          rw [hwindow] at hakin₂
          have hakin := hakin₁.trans hakin₂
          cases hconvert : d₂.convert plan window w₁.files with
          | mk attempt files =>
              simp only [hconvert, Prod.mk.injEq] at h
              obtain ⟨rfl, rfl, rfl⟩ := h
              obtain ⟨ps, hps, hlength, hwrite⟩ := convert_finished hconvert
              rw [hakin.stagingPath, hakin.locator] at hps
              rw [hakin.output, hakin.outputPath, hakin.locator] at hwrite
              have hmade : MadeOf d plan w₁.files
                  (d.output window (plan.conditions.clock d.locator) ps) :=
                ⟨rfl, hfetched.staged, hps⟩
              exact ⟨hakin, _, w₁.files, hmade, hfetched.cwd, hlength, hwrite⟩

theorem attempt_of_processed {attempt : Ending (Except Fault Nat)} {known locator : String}
    {n : Nat}
    (h : attempt.map (Outcome.ofAttempt known) = .finished (Outcome.processed locator n)) :
    locator = known ∧ attempt = .finished (.ok n) := by
  cases attempt with
  | brokeDown message => cases h
  | finished r =>
      cases r with
      | error f => cases h
      | ok m =>
          cases h
          exact ⟨rfl, rfl⟩

theorem work_processed {locator : String} {n : Nat}
    (h : (d.work plan w).1 = .finished (.processed locator n)) :
    locator = d.locator ∧ ∃ o staged made, MadeOf d plan staged o ∧
      staged.cwd = w.files.cwd ∧ o.elements.length = n ∧
      o.write staged d.outputPath = (.ok (), made) ∧
      (d.work plan w).2.files = d.cleanUp made := by
  unfold work at h ⊢
  split at h
  · cases h
  · next hfinished =>
      rw [if_neg hfinished]
      cases hingest : d.ingest plan w with
      | mk attempt rest =>
          obtain ⟨d', w'⟩ := rest
          simp only [hingest, conclude] at h ⊢
          obtain ⟨rfl, rfl⟩ := attempt_of_processed h
          obtain ⟨hakin, o, staged, hmade, hcwd, hlength, hwrite⟩ := ingest_finished hingest
          exact ⟨hakin.locator, o, staged, w'.files, hmade, hcwd, hlength, hwrite,
            hakin.cleanUp w'.files⟩

/-! ## What is left of a result -/

/-- Whether the result for a document with this many elements is where it belongs: a file that
denotes a result with the locator of the document. -/
def HasResult (d : Document σ) (fs : FileSystem) (n : Nat) : Prop :=
  fs.isFile d.outputPath = true ∧ ∃ bytes o, fs.read d.outputPath = .ok bytes ∧
    Output.ofBytes? bytes = some o ∧ o.locator = d.locator ∧ o.elements.length = n

/-- What writing a result has done: the result is there, and where it was written no other file
has changed. -/
theorem written_result {o : Output} {fs made : FileSystem}
    (h : o.write fs d.outputPath = (.ok (), made)) :
    made.cwd = fs.cwd ∧ Keeps fs made ∧ made.isFile d.outputPath = true ∧
      made.content? (d.outputPlace fs.cwd) = some o.bytes := by
  have hkeeps := FileSystem.keeps_publish Fault.ofFile fs ((d.outputPath.parent?).getD ⟨"."⟩)
    d.outputPath (.ok o.bytes)
  have hpublish := FileSystem.touched_publish_ok (congrArg Prod.fst h)
  rw [← Output.write_eq_publish, h] at hkeeps
  rw [Output.write] at h
  rw [h] at hpublish
  obtain ⟨htouched, hfile, bytes, hbytes, hcontent⟩ := hpublish
  cases hbytes
  exact ⟨htouched.cwd, hkeeps, hfile, hcontent⟩

theorem hasResult_of_content {o : Output} {fs : FileSystem} (hfile : fs.isFile d.outputPath = true)
    (hcontent : fs.content? (d.outputPlace fs.cwd) = some o.bytes) (hfits : o.Fits)
    (hlocator : o.locator = d.locator) : HasResult d fs o.elements.length :=
  ⟨hfile, o.bytes, o, FileSystem.read_of_isFile hfile hcontent, Output.ofBytes?_bytes hfits,
    hlocator, rfl⟩

/-- A file that is removed from the place of the result leaves no result. -/
theorem not_hasResult_of_remove {fs fs' : FileSystem} {n : Nat}
    (hremove : fs.removeFile d.stagingPath = .ok fs')
    (hplace : d.stagingPlace fs.cwd = d.outputPlace fs.cwd) : ¬HasResult d fs' n := by
  rintro ⟨hfile, -⟩
  obtain ⟨hcwd, _, hsight⟩ := FileSystem.sight?_removeFile hremove
  have hcontent := FileSystem.content?_of_isFile hfile
  have hnone : fs'.sight? (d.outputPath.location fs'.cwd) = none := by
    rw [hcwd, hsight, ← outputPlace, ← hplace]
    exact Function.update_self ..
  rw [FileSystem.content?, hnone] at hcontent
  cases hcontent

/-- A file that is removed from another place leaves the result. -/
theorem hasResult_of_remove {fs fs' : FileSystem} {n : Nat} (hresult : HasResult d fs n)
    (hremove : fs.removeFile d.stagingPath = .ok fs')
    (hplace : d.stagingPlace fs.cwd ≠ d.outputPlace fs.cwd) : HasResult d fs' n := by
  obtain ⟨hfile, bytes, o, hread, hrest⟩ := hresult
  have htouched := FileSystem.touched_removeFile hremove
  have hsame : fs'.content? (d.outputPlace fs.cwd) = fs.content? (d.outputPlace fs.cwd) :=
    htouched.contents _ fun hmem => hplace (Set.mem_singleton_iff.mp hmem).symm
  have hcontent : fs.content? (d.outputPlace fs.cwd) = some bytes :=
    FileSystem.content?_of_read hread
  have hfile' : fs'.isFile d.outputPath = true :=
    FileSystem.isFile_mono htouched.cwd htouched.kept
      (by rw [← outputPlace, hsame, hcontent]; rfl) hfile
  refine ⟨hfile', bytes, o, FileSystem.read_of_isFile hfile' ?_, hrest⟩
  rw [htouched.cwd, ← outputPlace, hsame, hcontent]

/-- What is left of a result after the cleaning up hangs on the places alone. -/
theorem hasResult_iff_places (hfits : plan.processor.Fits) {locator : String} {n : Nat}
    (h : (d.work plan w).1 = .finished (.processed locator n)) :
    locator = d.locator ∧ (HasResult d (d.work plan w).2.files n ↔
      d.settings.retain = true ∨ d.stagingPlace w.files.cwd ≠ d.outputPlace w.files.cwd) := by
  obtain ⟨hlocator, o, staged, made, hmade, hcwd, hlength, hwrite, hfiles⟩ := work_processed h
  obtain ⟨hcwd', hkeeps, hfile, hcontent⟩ := written_result hwrite
  have hresult : HasResult d made n := by
    rw [← hlength]
    exact hasResult_of_content hfile (hcwd'.symm ▸ hcontent) (hfits _ _ _ _ hmade.elements)
      hmade.locator
  refine ⟨hlocator, ?_⟩
  rw [hfiles, ← hcwd, ← hcwd']
  by_cases hretain : d.settings.retain = true
  · rw [cleanUp_of_retain hretain]
    exact iff_of_true hresult (Or.inl hretain)
  · -- writing the result has taken the staged file away at most by replacing it
    have hstaged : made.isFile d.stagingPath = true :=
      FileSystem.isFile_mono hcwd' hkeeps.directory
        (hkeeps.file _ (FileSystem.content?_of_isFile hmade.there)) hmade.there
    obtain ⟨after, hremove⟩ := FileSystem.exists_removeFile hstaged
    have hafter : d.cleanUp made = after := by
      rw [cleanUp, if_neg hretain, hremove]
      rfl
    rw [hafter]
    by_cases hplace : d.stagingPlace made.cwd = d.outputPlace made.cwd
    · refine iff_of_false (not_hasResult_of_remove hremove hplace) ?_
      rintro (h | h)
      · exact hretain h
      · exact h hplace
    · exact iff_of_true (hasResult_of_remove hresult hremove hplace) (Or.inr hplace)

/-- The staged file of a document that was processed has an ordinary name. -/
theorem ordinaryName_of_processed {locator : String} {n : Nat}
    (hsound : SoundExtension d.source.extension)
    (h : (d.work plan w).1 = .finished (.processed locator n)) :
    Path.OrdinaryName (stagedNameOf d.source) := by
  obtain ⟨_, _, staged, _, hmade, _⟩ := work_processed h
  exact FileSystem.ordinaryName_of_isFile (slash_notMem_stagedName hsound) hmade.there

/-- **Processed documents and their results.** A channel that was processed has its result, with
its locator and as many elements as were told, when its work is done. A file that was processed
has it exactly if staged files are kept, its extension is not that of results, or the two
directories are different ones. -/
theorem processed_hasResult_iff (hfits : plan.processor.Fits) {locator : String} {n : Nat}
    (h : (d.work plan w).1 = .finished (.processed locator n)) :
    locator = d.locator ∧
      (∀ c : Slack.Channel σ, d.source = c.source → HasResult d (d.work plan w).2.files n) ∧
      ∀ i : Drive.Item σ, d.source = i.source →
        (HasResult d (d.work plan w).2.files n ↔
          d.settings.retain = true ∨ i.file.extension ≠ "json" ∨
            d.settings.downloadDir.location w.files.cwd ≠
              d.settings.outputDir.location w.files.cwd) := by
  obtain ⟨hlocator, hiff⟩ := hasResult_iff_places hfits h
  refine ⟨hlocator, fun c hc => ?_, fun i hi => ?_⟩
  · have hsound : SoundExtension d.source.extension := by
      rw [hc]
      exact show SoundExtension "xml" by decide
    refine hiff.mpr (Or.inr fun hplace => ?_)
    have hjson := (stagingPlace_eq_outputPlace hsound (ordinaryName_of_processed hsound h) _).mp
      hplace
    rw [hc] at hjson
    exact absurd hjson.1 (show "xml" ≠ "json" by decide)
  · have hsound : SoundExtension d.source.extension := by
      rw [hi]
      exact fun c hc => Drive.File.isAlphanum_extension hc
    have hextension : d.source.extension = i.file.extension := by rw [hi]; rfl
    rw [hiff, ne_eq, stagingPlace_eq_outputPlace hsound (ordinaryName_of_processed hsound h),
      hextension, not_and_or]

/-! ## A file that is taken for its own result -/

/-- The elements of a document that was processed, with its locator. -/
def processed? : Ending Outcome → Option (String × Nat)
  | .finished (.processed locator n) => some (locator, n)
  | _ => none

theorem processed?_eq_some {ending : Ending Outcome} {locator : String} {n : Nat}
    (h : processed? ending = some (locator, n)) :
    ending = .finished (.processed locator n) := by
  unfold processed? at h
  split at h
  · cases h
    rfl
  · cases h

/-- A file of this name in a drive that gives one word for everything. -/
def oneWord (name : String) (settings : Settings) : Document Unit :=
  .ofSource settings (Drive.Item.source ⟨⟨"F", name, "", none, none, false⟩,
    .ofUrl (fun _ s => (some ⟨.ok, some "word".toUTF8⟩, s)) 1 "http://s" "t"⟩)

/-- The default way to work on documents. -/
def defaultPlan : Plan := ⟨Processing.processor Processing.defaultCleaners, .steady .epoch, false⟩

/-- A world without files. -/
def bare : World Unit := ⟨⟨.empty, []⟩, ()⟩

/-- One directory for staged files and results. -/
def oneDirectory : Settings := .within ⟨"d"⟩ ⟨"d"⟩

theorem processed_hasResult_iff_oneWord :
    ((oneWord "note.txt" oneDirectory).work defaultPlan bare).1 = .finished (.processed "F" 1) ∧
      HasResult (oneWord "note.txt" oneDirectory)
        ((oneWord "note.txt" oneDirectory).work defaultPlan bare).2.files 1 := by
  have hprocessed : ((oneWord "note.txt" oneDirectory).work defaultPlan bare).1 =
      .finished (.processed "F" 1) := processed?_eq_some (by decide +kernel)
  have hfits : defaultPlan.processor.Fits := Processing.fits_processor _
  have hextension : Drive.File.extension ⟨"F", "note.txt", "", none, none, false⟩ ≠ "json" := by
    decide
  exact ⟨hprocessed, ((processed_hasResult_iff hfits hprocessed).2.2 _ rfl).mpr
    (Or.inr (Or.inl hextension))⟩

/-- With settings that are fit for a run, a file can be processed and have no result. -/
theorem processed_without_result :
    ¬∀ (settings : Settings) (i : Drive.Item Unit) (plan : Plan) (w : World Unit)
      (locator : String) (n : Nat), settings.validate = .ok () → plan.processor.Fits →
      ((ofSource settings i.source).work plan w).1 = .finished (.processed locator n) →
      HasResult (ofSource settings i.source) ((ofSource settings i.source).work plan w).2.files n := by
  intro h
  have hprocessed : ((oneWord "note.json" oneDirectory).work defaultPlan bare).1 =
      .finished (.processed "F" 1) := processed?_eq_some (by decide +kernel)
  have hfits : defaultPlan.processor.Fits := Processing.fits_processor _
  have hresult := h oneDirectory _ defaultPlan bare "F" 1 rfl hfits hprocessed
  rcases (hasResult_iff_places hfits hprocessed).2.mp hresult with hretain | hplace
  · cases hretain
  · exact hplace (by decide +kernel)

end Document

end Intake
