import Intake.Drive.Volume
import Intake.Proofs.Document.Entries
import Intake.Proofs.Files.Pruning
import Intake.Proofs.Run.Effects
import Intake.Proofs.Run.Moments
import Intake.Slack.Workspace

/-!
# Files are changed in the two directories only

Whatever a service calls its items, the work on them changes no files but those that stand
directly in the download directory or in the output directory under a proper name. This holds of
each operation on a document, of each step of a task, and so of whole runs.
-/

namespace Intake

open Files

namespace Document

variable {σ : Type} {d : Document σ} {fs : FileSystem}

/-- The places where the work on documents with these settings may change files. -/
def inside (s : Settings) (cwd : Location) : Set Location :=
  within s.downloadDir cwd ∪ within s.outputDir cwd

theorem outputPlace_mem (d : Document σ) (cwd : Location) :
    d.outputPlace cwd ∈ within d.settings.outputDir cwd :=
  (proper_outputName d.locator).mem_within _ cwd

theorem stagingPlace_mem (h : Proper (stagedNameOf d.source)) (cwd : Location) :
    d.stagingPlace cwd ∈ within d.settings.downloadDir cwd :=
  h.mem_within _ cwd

section Sound

variable (hsound : SoundExtension d.source.extension)

include hsound

/-- A staged file that is there has a proper name. -/
theorem proper_of_isFile (h : fs.isFile d.stagingPath = true) : Proper (stagedNameOf d.source) :=
  ⟨FileSystem.ordinaryName_of_isFile (slash_notMem_stagedName hsound) h, plain_stagedName hsound⟩

/-- A staged file that can be removed has a proper name. -/
theorem proper_of_removeFile {fs' : FileSystem} (h : fs.removeFile d.stagingPath = .ok fs') :
    Proper (stagedNameOf d.source) := by
  obtain ⟨_, _, _, hparent, hdots, hslash, _⟩ := FileSystem.removeFile_eq_ok.mp h
  exact ⟨FileSystem.ordinaryName_of_locateParent (slash_notMem_stagedName hsound) hparent hdots
    hslash, plain_stagedName hsound⟩

/-- Cleaning up removes at most a file from the download directory. -/
theorem inside_cleanUp (fs : FileSystem) :
    Touched (within d.settings.downloadDir fs.cwd) ∅ fs (d.cleanUp fs) := by
  rcases d.cleanUp_cases fs with ⟨_, heq⟩ | ⟨_, hremove⟩
  · rw [heq]
    exact .refl fs
  · have hname := proper_of_removeFile hsound hremove
    exact (FileSystem.touched_removeFile hremove).mono
      (Set.singleton_subset_iff.mpr (stagingPlace_mem hname fs.cwd)) (Set.Subset.refl _)

/-- What is staged while a task waits stands in the download directory. -/
theorem inside_waits {before after : FileSystem} (h : Task.Waits d before after) :
    Touched (within d.settings.downloadDir before.cwd) (d.ways before) before after := by
  rcases h.staged with hsame | hfile
  · exact ⟨h.touched.cwd, fun loc _ => congrFun hsame loc, h.touched.kept, h.touched.made⟩
  · exact h.touched.mono
      (Set.singleton_subset_iff.mpr (stagingPlace_mem (proper_of_isFile hsound hfile) _))
      (Set.Subset.refl _)

/-- A fetch adds at most a file to the download directory. -/
theorem inside_fetch (w : World σ) :
    Touched (within d.settings.downloadDir w.files.cwd) (d.ways w.files) w.files
      (d.fetch w).2.2.files := by
  cases hstaged : d.isStaged w.files with
  | true =>
      rw [fetch_of_staged hstaged]
      exact .refl w.files
  | false =>
      rw [fetch_of_free hstaged]
      exact inside_waits hsound (Task.waits_receive d w.files _)

theorem inside_ends {before after : FileSystem} (h : Task.Ends d before after) :
    Touched (inside d.settings before.cwd) (d.ways before) before after := by
  obtain ⟨staged, made, hwaits, hmade, rfl⟩ := h
  have hstaged := inside_waits hsound hwaits
  have hconverts := hmade.touched
  have hcleanUp := inside_cleanUp hsound made
  -- all three changes are told in the terms of the tree before them
  rw [ways_congr hstaged.cwd, hstaged.cwd] at hconverts
  rw [hconverts.cwd, hstaged.cwd] at hcleanUp
  refine (hstaged.mono Set.subset_union_left (Set.Subset.refl _)).trans
    ((hconverts.mono ?_ (Set.Subset.refl _)).trans
      (hcleanUp.mono Set.subset_union_left (Set.empty_subset _)))
  exact Set.singleton_subset_iff.mpr (Or.inr (d.outputPlace_mem before.cwd))

end Sound

/-- Making a result changes at most a file in the output directory. -/
theorem inside_convert (d : Document σ) (plan : Plan) (window : Time.Window) (fs : FileSystem) :
    Touched (within d.settings.outputDir fs.cwd) (d.ways fs) fs (d.convert plan window fs).2 :=
  (d.converts_convert plan window fs).touched.mono
    (Set.singleton_subset_iff.mpr (d.outputPlace_mem fs.cwd)) (Set.Subset.refl _)

/-! ## Whole runs -/

/-- The places of directories that may be made for documents with these settings. -/
def waysOf (s : Settings) (fs : FileSystem) : Set Location :=
  fs.wayTo s.downloadDir ∪ fs.wayTo s.outputDir

/-- Whether a document has these settings and a sound extension. -/
structure Suits (s : Settings) (d : Document σ) : Prop where
  settings : d.settings = s
  sound : SoundExtension d.source.extension

theorem Suits.akin {s : Settings} {d' : Document σ} (h : Suits s d) (hakin : d.Akin d') :
    Suits s d' :=
  ⟨hakin.settings.trans h.settings, by rw [hakin.source]; exact h.sound⟩

/-- Whether the files have changed inside of the two directories only. -/
def Confined (s : Settings) (before after : FileSystem) : Prop :=
  Touched (inside s before.cwd) (waysOf s before) before after

theorem Confined.trans {s : Settings} {before mid after : FileSystem}
    (h : Confined s before mid) (h' : Confined s mid after) : Confined s before after := by
  have hways : waysOf s mid = waysOf s before := by
    unfold waysOf FileSystem.wayTo
    rw [h.cwd]
  unfold Confined at h'
  rw [h.cwd, hways] at h'
  exact Touched.trans h h'

end Document

namespace Task

open Document

variable {σ : Type} {s : Settings} {t : Task σ}

/-- A step of a task stays inside. -/
theorem confined_step (h : Suits s t.document) (plan : Plan) (w : World σ) :
    Confined s w.files (t.step plan w).2.files := by
  obtain ⟨rfl, hsound⟩ := h
  rcases step_cases plan t w with ⟨_, _, heq, hends⟩ | ⟨_, _, heq, _, _, hwaits⟩
  · rw [heq]
    exact inside_ends hsound hends
  · rw [heq]
    exact (inside_waits hsound hwaits).mono Set.subset_union_left (Set.Subset.refl _)

theorem confined_abandon (h : Suits s t.document) (fs : FileSystem) :
    Confined s fs (t.abandon fs) := by
  obtain ⟨rfl, hsound⟩ := h
  have hcleanUp : Confined t.document.settings fs (t.document.cleanUp fs) :=
    (inside_cleanUp hsound fs).mono Set.subset_union_left (Set.empty_subset _)
  cases t with
  | fresh d => exact .refl fs
  | downloading d => exact hcleanUp
  | probing d => exact hcleanUp

end Task

theorem Queue.confined_abandonAll {σ : Type} {s : Settings} {ts : List (Task σ)}
    (h : ∀ t ∈ ts, Document.Suits s t.document) (fs : FileSystem) :
    Document.Confined s fs (abandonAll fs ts) := by
  induction ts generalizing fs with
  | nil => exact .refl fs
  | cons t ts ih =>
      obtain ⟨ht, hts⟩ := List.forall_mem_cons.mp h
      exact (Task.confined_abandon ht fs).trans (ih hts (t.abandon fs))

namespace Moment

open Document

variable {σ : Type} {s : Settings} {plan : Plan} {bound : Nat} {m m' : Moment σ}
  {before : FileSystem}

/-- What holds at each moment of a run: all documents suit, and the files have changed inside
only. -/
structure Inside (s : Settings) (before : FileSystem) (m : Moment σ) : Prop where
  active : ∀ t ∈ m.active, Suits s t.document
  waiting : ∀ d ∈ m.waiting, Suits s d
  confined : Confined s before m.world.files

theorem Inside.next (hnext : Next plan bound m m') (h : Inside s before m) :
    Inside s before m' := by
  obtain ⟨hactive, hwaiting, hconfined⟩ := h
  cases hnext with
  | takeUp hroom =>
      obtain ⟨hd, hrest⟩ := List.forall_mem_cons.mp hwaiting
      refine ⟨?_, hrest, hconfined⟩
      intro t ht
      rcases List.mem_append.mp ht with ht | ht
      · exact hactive t ht
      · rw [List.mem_singleton.mp ht]
        exact hd
  | @goOn front back t t' waiting w w' outcomes hstep =>
      have ht := hactive t (mem_turn.mpr (Or.inl rfl))
      have hfiles := Task.confined_step ht plan w
      rw [hstep] at hfiles
      refine ⟨?_, hwaiting, hconfined.trans hfiles⟩
      intro u hu
      rcases mem_turn.mp hu with rfl | hu
      · exact ht.akin (Task.waits_of_step hstep).1
      · exact hactive u (mem_turn.mpr (Or.inr hu))
  | @finish front back t waiting w w' outcomes outcome hstep =>
      have hfiles := Task.confined_step (hactive t (mem_turn.mpr (Or.inl rfl))) plan w
      rw [hstep] at hfiles
      exact ⟨fun u hu => hactive u (mem_turn.mpr (Or.inr hu)), hwaiting, hconfined.trans hfiles⟩

theorem Inside.endsAs {ending : Ending (List Outcome)} {w : World σ} (h : Inside s before m)
    (hends : EndsAs plan bound m (ending, w)) : Confined s before w.files := by
  cases hends with
  | finished hleads => exact (hleads.invariant (fun _ _ => Inside.next) h).confined
  | @brokeDown front back t waiting w w' outcomes message hleads hstep =>
      obtain ⟨hactive, _, hconfined⟩ := hleads.invariant (fun _ _ => Inside.next) h
      have hfiles := Task.confined_step (hactive t (mem_turn.mpr (Or.inl rfl))) plan w
      rw [hstep] at hfiles
      -- the tasks that did not break down are abandoned, and cleaned up
      refine (hconfined.trans hfiles).trans ?_
      exact Queue.confined_abandonAll (fun u hu => hactive u (mem_turn.mpr (Or.inr hu))) _

end Moment

namespace Connector

open Document

variable {σ : Type} {c : Connector σ} {w : World σ}

theorem confined_workOn
    (hsound : ∀ d ∈ c.enumerated w.remote, SoundExtension d.source.extension)
    (processor : Processor) (conditions : Conditions) (schedule : Schedule) :
    Confined c.settings w.files (c.workOn processor conditions schedule w).2.files := by
  have hprepare : Confined c.settings w.files (c.prepare w.files).2 :=
    (c.touched_prepare w.files).mono (Set.empty_subset _) Set.subset_union_left
  rcases c.workOn_cases processor conditions schedule w with
    ⟨_, _, hfiles⟩ | ⟨m, ending, w', hstart, hends, heq⟩
  · rw [hfiles]
    exact hprepare
  · obtain ⟨_, hactive, hwaiting, hfiles, _⟩ := start_eq_some hstart
    have hinside : Moment.Inside c.settings w.files m := by
      refine ⟨?_, ?_, hfiles ▸ hprepare⟩
      · rw [hactive]
        exact List.forall_mem_nil _
      · rw [hwaiting]
        exact fun d hd => ⟨settings_of_enumerated hd, hsound d hd⟩
    rw [heq]
    exact hinside.endsAs hends

/-- A run changes no file but those that stand directly in its two directories. -/
theorem run_inside (hsound : ∀ d ∈ c.enumerated w.remote, SoundExtension d.source.extension)
    (processor : Processor) (conditions : Conditions) (schedule : Schedule) (loc : Location) :
    loc ∈ inside c.settings w.files.cwd ∨
      (c.run processor conditions schedule w).2.files.content? loc = w.files.content? loc := by
  by_cases hmem : loc ∈ inside c.settings w.files.cwd
  · exact Or.inl hmem
  · right
    rw [← (confined_workOn hsound processor conditions schedule).contents loc hmem, run]
    simp only [cleanUp]
    split
    · rfl
    · exact FileSystem.content?_pruneAt _ _ loc

end Connector

/-! ## The two services -/

namespace Document

variable {σ : Type} {d : Document σ}

/-- Whether a document is a channel of a workspace or a file of a drive. -/
def OfService (d : Document σ) : Prop :=
  (∃ c : Slack.Channel σ, d.source = c.source) ∨ ∃ i : Drive.Item σ, d.source = i.source

theorem OfService.sound (h : OfService d) : SoundExtension d.source.extension := by
  rcases h with ⟨c, hc⟩ | ⟨i, hi⟩
  · rw [hc]
    exact show SoundExtension "xml" by decide
  · rw [hi]
    exact fun c hc => Drive.File.isAlphanum_extension hc

theorem ofService_of_slack (v : Slack.Workspace σ) {remote : σ}
    (h : d ∈ v.connector.enumerated remote) :
    OfService d := by
  obtain ⟨sources, hlist, s, hs, rfl⟩ := Connector.exists_source h
  cases hlist
  obtain ⟨c, _, rfl⟩ := List.mem_map.mp hs
  exact Or.inl ⟨c, rfl⟩

theorem ofService_of_drive (v : Drive.Volume σ) {remote : σ}
    (h : d ∈ v.connector.enumerated remote) :
    OfService d := by
  obtain ⟨sources, hlist, s, hs, rfl⟩ := Connector.exists_source h
  have hsources : (v.sources remote).1 = .ok sources := hlist
  rw [Drive.Volume.sources] at hsources
  split at hsources
  · cases hsources
  · cases hsources
    obtain ⟨f, _, rfl⟩ := List.mem_map.mp hs
    exact Or.inr ⟨_, rfl⟩

/-- Whether a document has no name that it could be staged under. -/
def Unnamed (d : Document σ) : Prop := d.source.extension = "" ∧ isNowhere d.locator = true

instance (d : Document σ) : Decidable (Unnamed d) := inferInstanceAs (Decidable (_ ∧ _))

/-- What the operations on a document change at most. -/
structure Contained (d : Document σ) : Prop where
  fetch : ∀ w, Touched (within d.settings.downloadDir w.files.cwd) (d.ways w.files) w.files
    (d.fetch w).2.2.files
  convert : ∀ plan window fs, Touched (within d.settings.outputDir fs.cwd) (d.ways fs) fs
    (d.convert plan window fs).2
  cleanUp : ∀ fs, Touched (within d.settings.downloadDir fs.cwd) ∅ fs (d.cleanUp fs)

/-- What it means for a document that it is never staged. -/
structure NeverStaged (d : Document σ) : Prop where
  fetch : ∀ w, ∃ f, (d.fetch w).1 = .error f
  contents : ∀ w, (d.fetch w).2.2.files.content? = w.files.content?
  cleanUp : ∀ fs, d.cleanUp fs = fs

theorem contained (hsound : SoundExtension d.source.extension) : Contained d :=
  ⟨inside_fetch hsound, d.inside_convert, inside_cleanUp hsound⟩

theorem entryOf_stagingPath (hsound : SoundExtension d.source.extension) :
    EntryOf d.settings.downloadDir d.stagingPath ↔ ¬Unnamed d := by
  rw [stagingPath_eq, stagedNameOf, entryOf_join (slash_notMem_stagedName hsound),
    proper_stagedName_iff hsound]
  rfl

theorem Unnamed.neverStaged (h : Unnamed d) (hsound : SoundExtension d.source.extension) :
    NeverStaged d := by
  have hname : ¬Proper (stagedNameOf d.source) :=
    fun hproper => (proper_stagedName_iff hsound).mp hproper h
  have hfetch (w : World σ) : ∃ f, (d.fetch w).1 = .error f ∧
      (d.fetch w).2.2.files.content? = w.files.content? := by
    cases heq : d.fetch w with
    | mk r rest =>
        cases r with
        | error f => exact ⟨f, rfl, (fetch_error heq).contents⟩
        -- a success would leave a staged file
        | ok u => exact absurd (proper_of_isFile hsound (fetch_ok heq).staged) hname
  refine ⟨fun w => (hfetch w).imp fun _ h => h.1, fun w => (hfetch w).elim fun _ h => h.2, ?_⟩
  intro fs
  rcases d.cleanUp_cases fs with ⟨_, heq⟩ | ⟨_, hremove⟩
  · exact heq
  · exact absurd (proper_of_removeFile hsound hremove) hname

/-- **Files stay in their directories.** Whatever the services call their channels and files, a
result has a proper name directly in the output directory, and so has a staged file directly in
the download directory, unless it is that of a file without an extension whose identifier is
empty, `.` or `..`; then it is never staged, and cleaning it up does nothing. In any case neither
an operation on a document nor a run of a connector changes a file in another place. -/
theorem files_stay_inside :
    (∀ d : Document σ, OfService d →
      EntryOf d.settings.outputDir d.outputPath ∧
      (EntryOf d.settings.downloadDir d.stagingPath ↔ ¬Unnamed d) ∧
      (Unnamed d → NeverStaged d) ∧ Contained d) ∧
    (∀ (s : Settings) (c : Slack.Channel σ), ¬Unnamed (ofSource s c.source)) ∧
    ∀ c : Connector σ, ((∃ v : Slack.Workspace σ, c = v.connector) ∨
        ∃ v : Drive.Volume σ, c = v.connector) →
      ∀ processor conditions schedule w loc, loc ∈ inside c.settings w.files.cwd ∨
        (c.run processor conditions schedule w).2.files.content? loc = w.files.content? loc := by
  refine ⟨fun d hd => ⟨?_, entryOf_stagingPath hd.sound, fun h => h.neverStaged hd.sound,
    contained hd.sound⟩, ?_, ?_⟩
  · exact (entryOf_join (ordinaryName_outputName d.locator).single).mpr
      (proper_outputName d.locator)
  · exact fun s c h => absurd h.1 (show "xml" ≠ "" by decide)
  · intro c hc processor conditions schedule w loc
    refine Connector.run_inside (fun d hd => OfService.sound ?_) processor conditions schedule loc
    rcases hc with ⟨v, rfl⟩ | ⟨v, rfl⟩
    · exact ofService_of_slack v hd
    · exact ofService_of_drive v hd

/-! ## A file that is called like the directory above -/

/-- A client that is told one word whatever it asks for. -/
def wordClient : Http.Client Unit :=
  .ofUrl (fun _ s => (some ⟨.ok, some "word".toUTF8⟩, s)) 1 "http://s" "t"

def twoDirectories : Settings := .within ⟨"downloads"⟩ ⟨"output"⟩

/-- A file without an extension whose identifier is two dots. -/
def dottedFile : Drive.Item Unit := ⟨⟨"..", "x", "text/plain", none, none, false⟩, wordClient⟩

def dotted : Document Unit := .ofSource twoDirectories dottedFile.source

/-- A drive that begins with it. -/
def dottedDrive : Drive.Volume Unit :=
  ⟨twoDirectories, ⟨"..", "t", none, false, "http://s"⟩, wordClient⟩

theorem unnamed_dotted : Unnamed dotted := by decide +kernel

theorem files_stay_inside_dotted :
    OfService dotted ∧ Unnamed dotted ∧ ¬EntryOf ⟨"downloads"⟩ dotted.stagingPath ∧
      NeverStaged dotted ∧ ∀ schedule loc, loc ∈ inside twoDirectories [] ∨
        (dottedDrive.connector.run (Processing.processor []) (.steady .epoch) schedule
          ⟨⟨.empty, []⟩, ()⟩).2.files.content? loc = none := by
  obtain ⟨hplaces, _, hruns⟩ := @files_stay_inside Unit
  have hservice : OfService dotted := Or.inr ⟨dottedFile, rfl⟩
  obtain ⟨_, hstaging, hnever, _⟩ := hplaces dotted hservice
  refine ⟨hservice, unnamed_dotted, fun h => hstaging.mp h unnamed_dotted, hnever unnamed_dotted,
    fun schedule loc => ?_⟩
  have hnone : FileSystem.content? ⟨.empty, []⟩ loc = none := by cases loc <;> rfl
  have hrun := hruns dottedDrive.connector (Or.inr ⟨dottedDrive, rfl⟩) (Processing.processor [])
    (.steady .epoch) schedule ⟨⟨.empty, []⟩, ()⟩ loc
  exact hrun.imp_right fun h => h.trans hnone

/-- The path of a staged file can lead out of the download directory. -/
theorem staged_above :
    (¬∀ (s : Settings) (i : Drive.Item Unit),
      EntryOf s.downloadDir (ofSource s i.source).stagingPath) ∧
    dotted.stagingPath = ⟨"downloads/.."⟩ ∧ dotted.stagingPlace [] = [] := by
  refine ⟨fun h => ?_, by decide +kernel, by decide +kernel⟩
  have hsound : SoundExtension dotted.source.extension := by decide +kernel
  exact (entryOf_stagingPath hsound).mp (h twoDirectories dottedFile) unnamed_dotted

end Document

end Intake
