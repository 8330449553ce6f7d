import Intake.Document.Lifecycle
import Intake.Proofs.Files.Publishing

/-!
# Fetches

A fetch may fail when the source is asked, when the stamps are read, when the download
directory is made, while the content is made or when the file is moved to its place.
Wherever it fails, no file of the tree has changed and the document knows no more than
before; only where all of this went well are file, presence and window taken over.
-/

namespace Intake.Document

open Files

variable {σ : Type} {d : Document σ} {fs : FileSystem}

/-! ## Receiving what a source answered -/

theorem receive_error {answer : Except Fault Download} {f : Fault}
    (h : (d.receive fs answer).1 = .error f) :
    (d.receive fs answer).2.1 = d.lost ∧
      Touched ∅ (fs.wayTo d.settings.downloadDir) fs (d.receive fs answer).2.2 := by
  cases answer with
  | error g => exact ⟨rfl, .refl fs⟩
  | ok download =>
      rw [receive] at h ⊢
      cases hwindow : d.windowFor download with
      | error g => exact ⟨rfl, .refl fs⟩
      | ok window =>
          simp only [hwindow] at h ⊢
          cases hstage : d.stage fs download with
          | mk r fs' =>
              cases r with
              | ok u =>
                  rw [hstage] at h
                  cases h
              | error g =>
                  have htouched := FileSystem.touched_publish_error (congrArg Prod.fst hstage)
                  rw [stage] at hstage
                  rw [hstage] at htouched
                  exact ⟨rfl, htouched⟩

theorem receive_ok {answer : Except Fault Download}
    (h : (d.receive fs answer).1 = .ok ()) :
    ∃ download window bytes, answer = .ok download ∧ d.windowFor download = .ok window ∧
      download.content = .ok bytes ∧
      (d.receive fs answer).2.1 = { d.held with window := some window } ∧
      Touched {d.stagingPath.location fs.cwd} (fs.wayTo d.settings.downloadDir) fs
        (d.receive fs answer).2.2 ∧
      (d.receive fs answer).2.2.isFile d.stagingPath = true ∧
      (d.receive fs answer).2.2.content? (d.stagingPath.location fs.cwd) = some bytes := by
  cases answer with
  | error g => cases h
  | ok download =>
      rw [receive] at h ⊢
      cases hwindow : d.windowFor download with
      | error g =>
          rw [hwindow] at h
          cases h
      | ok window =>
          simp only [hwindow] at h ⊢
          cases hstage : d.stage fs download with
          | mk r fs' =>
              cases r with
              | error g =>
                  rw [hstage] at h
                  cases h
              | ok u =>
                  obtain ⟨htouched, hfile, bytes, hcontent, hbytes⟩ :=
                    FileSystem.touched_publish_ok (congrArg Prod.fst hstage)
                  rw [stage] at hstage
                  rw [hstage] at htouched hfile hbytes
                  exact ⟨download, window, bytes, rfl, hwindow, hcontent, rfl, htouched, hfile,
                    hbytes⟩

/-! ## Other sources -/

section Asking

variable {τ : Type} {s : Source τ}

/-- The document that asks another source. -/
def asking (d : Document σ) (s : Source τ) : Document τ := ⟨s, d.settings, d.presence, d.window⟩

/-- What is learned from an answer hangs on the locator alone. -/
theorem learn_asking (hlocator : s.locator = d.source.locator) (answer : Except Fault Probe) :
    (d.asking s).learn answer = ((d.learn answer).1, (d.learn answer).2.asking s) := by
  cases answer with
  | error f =>
      have hsame : (d.asking s).locator = d.locator := hlocator
      rw [learn, learn, hsame]
  | ok found =>
      rw [learn, learn]
      cases observed found <;> rfl

/-- What is received in an answer hangs on the locator and the extension alone. -/
theorem receive_asking (hlocator : s.locator = d.source.locator)
    (hextension : s.extension = d.source.extension) (fs : FileSystem)
    (answer : Except Fault Download) :
    (d.asking s).receive fs answer =
      ((d.receive fs answer).1, (d.receive fs answer).2.1.asking s,
        (d.receive fs answer).2.2) := by
  have hsame : (d.asking s).locator = d.locator := hlocator
  cases answer with
  | error f =>
      rw [receive, receive, hsame]
      rfl
  | ok download =>
      have hwindow : (d.asking s).windowFor download = d.windowFor download := rfl
      have hpath : (d.asking s).stagingPath = d.stagingPath := by
        rw [stagingPath, stagingPath, hsame]
        exact congrArg (fun e => d.settings.downloadDir.join (stagedName d.locator e)) hextension
      have hstage : (d.asking s).stage fs download = d.stage fs download := by
        rw [stage, stage, hpath]
        rfl
      rw [receive, receive, hwindow, hstage]
      cases d.windowFor download with
      | error f => rfl
      | ok window =>
          simp only
          cases d.stage fs download with
          | mk r fs' => cases r <;> rfl

end Asking

/-! ## What a fetch leaves behind -/

/-- What holds after a fetch that succeeded. A staged file that was there is used as it is,
without asking the source; else the source was asked for one download, and the staged file
is all of what was made of it. -/
structure Fetched (d : Document σ) (w : World σ) (d' : Document σ) (w' : World σ) : Prop where
  source : d'.source = d.source
  settings : d'.settings = d.settings
  present : d'.presence = .present
  staged : w'.files.isFile d.stagingPath = true
  found : d.isStaged w.files = true → w' = w ∧ d'.window = d.window
  downloaded : d.isStaged w.files = false → ∃ download bytes,
    d.source.download w.remote = (.ok download, w'.remote) ∧ download.content = .ok bytes ∧
      w'.files.read d.stagingPath = .ok bytes ∧
      Touched {d.stagingPath.location w.files.cwd} (w.files.wayTo d.settings.downloadDir)
        w.files w'.files
  window : d.isStaged w.files = false → ∃ window, d'.window = some window ∧
    (d.window = some window ∨ d.window = none ∧
      ∃ download, (d.source.download w.remote).1 = .ok download ∧
        windowOf download.stamps = .ok window)

/-- What holds after a fetch that failed: the source was asked for one download, and at most
directories on the way to the download directory are new. Where the source itself failed,
nothing is new, and the fault is one of the source. -/
structure Missed (d : Document σ) (w : World σ) (f : Fault) (d' : Document σ) (w' : World σ) :
    Prop where
  source : d'.source = d.source
  settings : d'.settings = d.settings
  absent : d'.presence = .absent
  window : d'.window = d.window
  notStaged : d.isStaged w.files = false
  asked : w'.remote = (d.source.download w.remote).2
  contents : w'.files.content? = w.files.content?
  directories : Touched ∅ (w.files.wayTo d.settings.downloadDir) w.files w'.files
  refused : ∀ g, (d.source.download w.remote).1 = .error g →
    f = g.atSource d.locator ∧ f.isUnavailable = true ∧ w'.files = w.files

theorem isUnavailable_atSource (locator : String) (f : Fault) :
    (f.atSource locator).isUnavailable = true := by
  rw [Fault.atSource]
  split
  · next h => exact h
  · rfl

theorem windowFor_eq_ok {download : Download} {window : Time.Window} :
    d.windowFor download = .ok window ↔
      d.window = some window ∨ d.window = none ∧ windowOf download.stamps = .ok window := by
  rw [windowFor]
  cases d.window with
  | none => simp
  | some w => simp

/-- A staged file that is there is used without asking the source. -/
theorem fetched_of_staged {w : World σ} (h : d.isStaged w.files = true) :
    Fetched d w d.held w where
  source := rfl
  settings := rfl
  present := rfl
  staged := h
  found := fun _ => ⟨rfl, rfl⟩
  downloaded hfree := by
    rw [h] at hfree
    cases hfree
  window hfree := by
    rw [h] at hfree
    cases hfree

section Asked

variable {w : World σ} {answer : Except Fault Download} {remote : σ} {d' : Document σ}
  {files : FileSystem} (hfree : d.isStaged w.files = false)
  (hanswer : d.source.download w.remote = (answer, remote))

include hfree hanswer

theorem missed_of_receive {f : Fault} (h : d.receive w.files answer = (.error f, d', files)) :
    Missed d w f d' ⟨files, remote⟩ := by
  have hmissed := receive_error (congrArg Prod.fst h)
  rw [h] at hmissed
  obtain ⟨rfl, htouched⟩ := hmissed
  exact {
    source := rfl
    settings := rfl
    absent := rfl
    window := rfl
    notStaged := hfree
    asked := by rw [hanswer]
    contents := funext fun loc => htouched.contents loc (Set.notMem_empty loc)
    directories := htouched
    refused := by
      -- a source that fails is met before anything is made
      intro g hg
      rw [hanswer] at hg
      cases hg
      cases h
      exact ⟨rfl, isUnavailable_atSource _ g, rfl⟩ }

theorem fetched_of_receive (h : d.receive w.files answer = (.ok (), d', files)) :
    Fetched d w d' ⟨files, remote⟩ := by
  obtain ⟨download, window, bytes, rfl, hwindow, hcontent, hd', htouched, hfile, hbytes⟩ :=
    receive_ok (congrArg Prod.fst h)
  rw [h] at hd' htouched hfile hbytes
  obtain rfl : d' = { d.held with window := some window } := hd'
  have hread := FileSystem.read_of_isFile hfile (htouched.cwd.symm ▸ hbytes)
  have hnew : d.window = some window ∨ d.window = none ∧
      ∃ download, (d.source.download w.remote).1 = .ok download ∧
        windowOf download.stamps = .ok window := by
    rcases windowFor_eq_ok.mp hwindow with h | ⟨hnone, hstamps⟩
    · exact Or.inl h
    · exact Or.inr ⟨hnone, download, by rw [hanswer], hstamps⟩
  exact {
    source := rfl
    settings := rfl
    present := rfl
    staged := hfile
    found := by
      intro hthere
      rw [hfree] at hthere
      cases hthere
    downloaded := fun _ => ⟨download, bytes, hanswer, hcontent, hread, htouched⟩
    window := fun _ => ⟨window, rfl, hnew⟩ }

end Asked

/-! ## Fetches that ask and fetches that do not -/

theorem fetch_of_staged {w : World σ} (h : d.isStaged w.files = true) :
    d.fetch w = (.ok (), d.held, w) := by
  rw [fetch, if_pos h]

theorem fetch_of_free {w : World σ} (h : d.isStaged w.files = false) :
    d.fetch w = ((d.receive w.files (d.source.download w.remote).1).1,
      (d.receive w.files (d.source.download w.remote).1).2.1,
      ⟨(d.receive w.files (d.source.download w.remote).1).2.2,
        (d.source.download w.remote).2⟩) := by
  rw [fetch, h, if_neg Bool.false_ne_true]

theorem fetch_ok {w w' : World σ} {d' : Document σ} (h : d.fetch w = (.ok (), d', w')) :
    Fetched d w d' w' := by
  cases hstaged : d.isStaged w.files with
  | true =>
      rw [fetch_of_staged hstaged] at h
      cases h
      exact fetched_of_staged hstaged
  | false =>
      rw [fetch_of_free hstaged] at h
      obtain ⟨hanswered, hrest⟩ := Prod.mk.inj h
      obtain ⟨rfl, rfl⟩ := Prod.mk.inj hrest
      exact fetched_of_receive hstaged rfl (Prod.ext hanswered rfl)

theorem fetch_error {w w' : World σ} {d' : Document σ} {f : Fault}
    (h : d.fetch w = (.error f, d', w')) : Missed d w f d' w' := by
  cases hstaged : d.isStaged w.files with
  | true =>
      rw [fetch_of_staged hstaged] at h
      cases h
  | false =>
      rw [fetch_of_free hstaged] at h
      obtain ⟨hanswered, hrest⟩ := Prod.mk.inj h
      obtain ⟨rfl, rfl⟩ := Prod.mk.inj hrest
      exact missed_of_receive hstaged rfl (Prod.ext hanswered rfl)

/-- **A fetch is all or nothing.** Whatever the document knows, the tree holds and the source
answers, a fetch either leaves the complete staged file of a document that is present, or no
file that was not there before, of a document that is absent. -/
theorem fetch_all_or_nothing (d : Document σ) (w : World σ) :
    match d.fetch w with
    | (.ok (), d', w') => Fetched d w d' w'
    | (.error f, d', w') => Missed d w f d' w' := by
  cases h : d.fetch w with
  | mk r rest =>
      obtain ⟨d', w'⟩ := rest
      cases r with
      | error f => exact fetch_error h
      | ok u => exact fetch_ok h

end Intake.Document
