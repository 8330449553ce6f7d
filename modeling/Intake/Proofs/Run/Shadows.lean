import Intake.Proofs.Files.Obstacles
import Intake.Proofs.Run.Alone

/-!
# Work in two trees

The work on a document sees little of a tree: what is at the two places of the document, and
whether the ways to the two directories are open. Two trees that came from one tree and
agree at the two places are the same to it, whatever other documents did to one of them:
each step comes to the same progress in both and leaves them in agreement.
-/

namespace Intake

open Files

variable {σ : Type}

/-- A processor that comes to elements or to a fault by what is staged, the path and the locator
alone. -/
def Processor.Regular (processor : Processor) : Prop :=
  ∃ elements : ByteArray → Path → String → Except Fault (List Element.Paragraph),
    ∀ fs p locator bytes, FileSystem.read fs p = .ok bytes →
      processor fs p locator = Processing.ofExcept (elements bytes p locator)

/-- The elements of a staged file once it is read. -/
def Processing.elementsFrom (cleaners : List Cleaning.Cleaner) (bytes : ByteArray) (p : Path)
    (locator : String) : Except Fault (List Element.Paragraph) := do
  let some content := String.fromUTF8? bytes | .error (.unreadable (.notText p.text))
  let ps ← elementsOf content (isDump p) ⟨none, p.fileName?, some locator⟩
  let ps ← cleanAll cleaners ps
  .ok (Element.number ps)

/-- Processing staged files by cleaners is regular. -/
theorem Processing.regular_processor (cleaners : List Cleaning.Cleaner) :
    Processor.Regular (processor cleaners) := by
  refine ⟨elementsFrom cleaners, ?_⟩
  intro fs p locator bytes hread
  rw [processor, process, hread]
  rfl

/-- Two directories of which neither is in the other one, with paths that go up only from
directories that are there. -/
structure Apart (before : FileSystem) (s : Settings) : Prop where
  download : before.Grounded s.downloadDir
  output : before.Grounded s.outputDir
  notAbove : ¬s.downloadDir.location before.cwd <+: s.outputDir.location before.cwd
  notBelow : ¬s.outputDir.location before.cwd <+: s.downloadDir.location before.cwd

/-- Whether a place is at or above one of the two directories. -/
def Above (before : FileSystem) (s : Settings) (loc : Location) : Prop :=
  loc <+: s.downloadDir.location before.cwd ∨ loc <+: s.outputDir.location before.cwd

/-- A later tree in which there are no other files at or above the two directories. -/
structure Clear (before : FileSystem) (s : Settings) (fs : FileSystem) : Prop where
  later : before.Later fs
  above : ∀ loc, Above before s loc → fs.content? loc = before.content? loc

namespace Clear

variable {before fs fs' : FileSystem} {s : Settings} {files dirs : Set Location}
  {loc : Location}

theorem refl (before : FileSystem) (s : Settings) : Clear before s before :=
  ⟨.refl before, fun _ _ => rfl⟩

theorem touched (h : Clear before s fs) (htouched : Touched files dirs fs fs')
    (hfiles : ∀ loc ∈ files, ¬Above before s loc) : Clear before s fs' where
  later := h.later.touched htouched
  above loc hloc := by
    rw [htouched.contents loc fun hmem => hfiles loc hmem hloc]
    exact h.above loc hloc

/-- Directories on the ways are new only at places above the two directories. -/
theorem dir_of_way (happart : Apart before s) (h : Clear before s fs)
    (hway : loc ∈ fs.wayTo s.downloadDir ∪ fs.wayTo s.outputDir)
    (hloc : ¬Above before s loc) : fs.sight? loc = some .directory := by
  rw [Above, not_or, ← h.later.cwd] at hloc
  rcases hway with hway | hway
  · exact (FileSystem.dir_or_above_of_passes (happart.download.later h.later) hway).resolve_right
      hloc.1
  · exact (FileSystem.dir_or_above_of_passes (happart.output.later h.later) hway).resolve_right
      hloc.2

/-- Elsewhere, nothing changes but the files that are changed. -/
theorem sight? (happart : Apart before s) (h : Clear before s fs)
    (htouched : Touched files dirs fs fs')
    (hdirs : dirs ⊆ fs.wayTo s.downloadDir ∪ fs.wayTo s.outputDir)
    (hloc : ¬Above before s loc) (hfiles : loc ∉ files) : fs'.sight? loc = fs.sight? loc := by
  by_cases hmem : loc ∈ dirs
  · have hdir := dir_of_way happart h (hdirs hmem) hloc
    rw [hdir]
    exact htouched.kept loc hdir
  · exact htouched.sight? hfiles hmem

end Clear

/-! ## The places of a document -/

/-- A document of two directories that stand apart, with a staged file directly in one. -/
structure Document.Placed (before : FileSystem) (d : Document σ) : Prop where
  apart : Apart before d.settings
  name : Path.OrdinaryName (Document.stagedNameOf d.source)

namespace Document.Placed

variable {before : FileSystem} {d d' : Document σ}

theorem akin (h : d.Placed before) (hakin : d.Akin d') : d'.Placed before where
  apart := hakin.settings ▸ h.apart
  name := hakin.source ▸ h.name

theorem not_prefix_concat {a b : Location} {name : String} (hab : ¬a <+: b) :
    ¬a ++ [name] <+: b :=
  fun h => hab ((List.prefix_append a [name]).trans h)

theorem not_concat_prefix {a : Location} {name : String} : ¬a ++ [name] <+: a := by
  intro h
  have hlength := h.length_le
  rw [List.length_append, List.length_singleton] at hlength
  omega

theorem stagingPlace_eq (h : d.Placed before) (cwd : Location) :
    d.stagingPlace cwd =
      d.settings.downloadDir.location cwd ++ [Document.stagedNameOf d.source] :=
  Document.stagingPlace_eq h.name cwd

theorem staging_not_above (h : d.Placed before) :
    ¬Above before d.settings (d.stagingPlace before.cwd) := by
  rw [h.stagingPlace_eq]
  rintro (hpre | hpre)
  · exact not_concat_prefix hpre
  · exact not_prefix_concat h.apart.notAbove hpre

theorem output_not_above (h : d.Placed before) :
    ¬Above before d.settings (d.outputPlace before.cwd) := by
  rw [d.outputPlace_eq]
  rintro (hpre | hpre)
  · exact not_prefix_concat h.apart.notBelow hpre
  · exact not_concat_prefix hpre

theorem places_not_above (h : d.Placed before) :
    ∀ loc ∈ d.places before.cwd, ¬Above before d.settings loc := by
  rintro loc (heq | heq)
  · rw [heq]
    exact h.staging_not_above
  · rw [Set.mem_singleton_iff.mp heq]
    exact h.output_not_above

end Document.Placed

/-! ## Two trees in agreement -/

/-- Two trees that came from one tree and in which the same is at the places of a document. -/
structure Alike (before : FileSystem) (d : Document σ) (fs fs' : FileSystem) : Prop where
  left : Clear before d.settings fs
  right : Clear before d.settings fs'
  same : ∀ loc ∈ d.places before.cwd, fs'.sight? loc = fs.sight? loc

namespace Alike

variable {before fs fs' gs gs' : FileSystem} {d d' : Document σ} {files dirs dirs' : Set Location}

theorem akin (h : Alike before d fs fs') (hakin : d.Akin d') : Alike before d' fs fs' where
  left := hakin.settings ▸ h.left
  right := hakin.settings ▸ h.right
  same := by
    rw [hakin.places]
    exact h.same

theorem cwd (h : Alike before d fs fs') : fs'.cwd = fs.cwd :=
  h.right.later.cwd.trans h.left.later.cwd.symm

/-- Changes that leave the same behind at the places of a document, and elsewhere change only
the ways, keep two trees in agreement. -/
theorem touched (hplaced : d.Placed before) (h : Alike before d fs fs')
    (hleft : Touched files dirs fs gs) (hright : Touched files dirs' fs' gs')
    (hdirs : dirs ⊆ d.ways fs) (hdirs' : dirs' ⊆ d.ways fs')
    (hfiles : files ⊆ d.places before.cwd)
    (hsame : ∀ loc ∈ files, gs'.sight? loc = gs.sight? loc) : Alike before d gs gs' where
  left := h.left.touched hleft fun loc hloc => hplaced.places_not_above loc (hfiles hloc)
  right := h.right.touched hright fun loc hloc => hplaced.places_not_above loc (hfiles hloc)
  same loc hloc := by
    by_cases hmem : loc ∈ files
    · exact hsame loc hmem
    · have habove := hplaced.places_not_above loc hloc
      rw [h.right.sight? hplaced.apart hright hdirs' habove hmem,
        h.left.sight? hplaced.apart hleft hdirs habove hmem]
      exact h.same loc hloc

theorem staging_same (h : Alike before d fs fs') :
    fs'.sight? (d.stagingPath.location fs.cwd) = fs.sight? (d.stagingPath.location fs.cwd) := by
  rw [h.left.later.cwd]
  exact h.same _ (Or.inl rfl)

section Operations

variable (hplaced : d.Placed before) (h : Alike before d fs fs')

include hplaced h

theorem isStaged : d.isStaged fs' = d.isStaged fs :=
  FileSystem.isFile_join_grounded (hplaced.apart.download.later h.left.later)
    (hplaced.apart.download.later h.right.later) hplaced.name h.cwd h.staging_same

theorem isFinished (plan : Plan) : d.isFinished plan fs' = d.isFinished plan fs := by
  rw [Document.isFinished, Document.isFinished]
  refine congrArg (!plan.reprocess && ·) ?_
  refine FileSystem.exists?_join_congr (hplaced.apart.output.later h.left.later)
    (hplaced.apart.output.later h.right.later)
    (Document.ordinaryName_outputName d.locator) h.cwd ?_
  rw [h.left.later.cwd]
  exact h.same _ (Or.inr rfl)

/-! ## Publishing -/

variable {ε : Type} (ofFile : FileError → ε) {dir p : Path} {name : String}
  (hways : ∀ fs : FileSystem, fs.wayTo dir ⊆ d.ways fs)
  (hplace : (p.join name).location before.cwd ∈ d.places before.cwd)

include hways hplace

/-- Where a directory is made in both trees or in none, publishing there succeeds in both or
in none. -/
theorem publish_same (hname : Path.OrdinaryName name)
    (hopens : ∀ made, before.Later made → made.Ready dir →
      ∃ loc, made.locateDir dir = .ok loc ∧ made.walk (made.origin p) p.names = .ok loc ∧
        loc ++ [name] = (p.join name).location before.cwd)
    (hmakes : (fs'.makeDirs dir).1 = (fs.makeDirs dir).1) (content : Except ε ByteArray) :
    (fs'.publish ofFile dir (p.join name) content).1 =
      (fs.publish ofFile dir (p.join name) content).1 := by
  have habove := hplaced.places_not_above _ hplace
  -- once the directory is there, the result hangs on the place of the target alone
  have hresult {gs made : FileSystem} (hclear : Clear before d.settings gs)
      (hmade : gs.makeDirs dir = (.ok (), made)) :
      (gs.publish ofFile dir (p.join name) content).1 =
        FileSystem.landing ofFile (p.join name) name
          (gs.sight? ((p.join name).location before.cwd)) content := by
    have htouched := gs.touched_makeDirs dir
    rw [hmade] at htouched
    obtain ⟨loc, hopen, hwalk, hloc⟩ := hopens made (hclear.later.touched htouched)
      (FileSystem.isDir_of_makeDirs hmade)
    rw [FileSystem.publish_opened hname hmade hopen hwalk, hloc,
      hclear.sight? hplaced.apart htouched (hways gs) habove (Set.notMem_empty _)]
  cases hmade : fs.makeDirs dir with
  | mk r made =>
      cases hmade' : fs'.makeDirs dir with
      | mk r' made' =>
          rw [hmade, hmade'] at hmakes
          obtain rfl : r' = r := hmakes
          cases r' with
          | error e => rw [FileSystem.publish, FileSystem.publish, hmade, hmade']
          | ok u =>
              rw [hresult h.left hmade, hresult h.right hmade', h.same _ hplace]

/-- Publishing that comes to the same in both trees leaves the same behind. -/
theorem alike_publish {content : Except ε ByteArray}
    (hsame : (fs'.publish ofFile dir (p.join name) content).1 =
      (fs.publish ofFile dir (p.join name) content).1) :
    Alike before d (fs.publish ofFile dir (p.join name) content).2
      (fs'.publish ofFile dir (p.join name) content).2 := by
  cases hresult : (fs.publish ofFile dir (p.join name) content).1 with
  | error e =>
      have hleft := FileSystem.touched_publish_error hresult
      have hright := FileSystem.touched_publish_error (hsame.trans hresult)
      exact h.touched hplaced hleft hright (hways fs) (hways fs') (Set.empty_subset _)
        fun loc hloc => absurd hloc (Set.notMem_empty loc)
  | ok u =>
      obtain ⟨hleft, _, bytes, hcontent, hbytes⟩ := FileSystem.touched_publish_ok hresult
      obtain ⟨hright, _, bytes', hcontent', hbytes'⟩ :=
        FileSystem.touched_publish_ok (hsame.trans hresult)
      rw [hcontent] at hcontent'
      cases hcontent'
      rw [h.left.later.cwd] at hleft hbytes
      rw [h.right.later.cwd] at hright hbytes'
      refine h.touched hplaced hleft hright (hways fs) (hways fs')
        (Set.singleton_subset_iff.mpr hplace) ?_
      intro loc hloc
      rw [Set.mem_singleton_iff.mp hloc, FileSystem.content?_eq_some.mp hbytes,
        FileSystem.content?_eq_some.mp hbytes']

end Operations

section Steps

variable (hplaced : d.Placed before) (h : Alike before d fs fs')

include hplaced h

/-! ## The parts of the work -/

theorem stage (hmakes : (fs.makeDirs d.settings.downloadDir).1 = .ok ())
    (hmakes' : (fs'.makeDirs d.settings.downloadDir).1 = .ok ()) (download : Download) :
    (d.stage fs' download).1 = (d.stage fs download).1 ∧
      Alike before d (d.stage fs download).2 (d.stage fs' download).2 := by
  have hways (fs : FileSystem) : fs.wayTo d.settings.downloadDir ⊆ d.ways fs :=
    Set.subset_union_left
  have hplace : (d.settings.downloadDir.join (Document.stagedNameOf d.source)).location
      before.cwd ∈ d.places before.cwd := Or.inl rfl
  have hsame := h.publish_same hplaced Fault.ofFile hways hplace hplaced.name ?_
    (hmakes'.trans hmakes.symm) download.content
  · exact ⟨hsame, h.alike_publish hplaced Fault.ofFile hways hplace hsame⟩
  · intro made hlater hready
    have hground := hplaced.apart.download.later hlater
    refine ⟨_, FileSystem.locateDir_of_ready hready hground.origin,
      FileSystem.walk_of_ready hready, ?_⟩
    rw [hlater.cwd, Path.location_join _ _ hplaced.name]

theorem receive (hmakes : (fs.makeDirs d.settings.downloadDir).1 = .ok ())
    (hmakes' : (fs'.makeDirs d.settings.downloadDir).1 = .ok ())
    (answer : Except Fault Download) :
    (d.receive fs' answer).1 = (d.receive fs answer).1 ∧
      (d.receive fs' answer).2.1 = (d.receive fs answer).2.1 ∧
      Alike before d (d.receive fs answer).2.2 (d.receive fs' answer).2.2 := by
  cases answer with
  | error f => exact ⟨rfl, rfl, h⟩
  | ok download =>
      rw [Document.receive, Document.receive]
      cases d.windowFor download with
      | error f => exact ⟨rfl, rfl, h⟩
      | ok window =>
          obtain ⟨hsame, halike⟩ := h.stage hplaced hmakes hmakes' download
          cases hstage : d.stage fs download with
          | mk r gs =>
              cases hstage' : d.stage fs' download with
              | mk r' gs' =>
                  rw [hstage, hstage'] at hsame halike
                  obtain rfl : r' = r := hsame
                  cases r' with
                  | error f => exact ⟨rfl, rfl, halike⟩
                  | ok u => exact ⟨rfl, rfl, halike⟩

theorem write (o : Output) (struck : Option Fault) :
    (o.write fs' d.outputPath struck).1 = (o.write fs d.outputPath struck).1 ∧
      Alike before d (o.write fs d.outputPath struck).2 (o.write fs' d.outputPath struck).2 := by
  have hname := Document.ordinaryName_outputName d.locator
  have hways (fs : FileSystem) : fs.wayTo d.settings.outputDir.spare ⊆ d.ways fs :=
    (fs.wayTo_components _).trans Set.subset_union_right
  have hplace : (d.settings.outputDir.join (Document.outputName d.locator)).location
      before.cwd ∈ d.places before.cwd := Or.inr rfl
  have hground := FileSystem.grounded_spare hplaced.apart.output
  have hspare : d.settings.outputDir.spare.components = d.settings.outputDir.spare.names := by
    rw [Path.components_spare, Path.names_spare]
  -- others made directories on the way since, and no files, so it is open as before
  have hmakes {gs : FileSystem} (hclear : Clear before d.settings gs) :
      (gs.makeDirs d.settings.outputDir.spare).1 =
        (before.makeDirs d.settings.outputDir.spare).1 := by
    refine FileSystem.makeDirs_later hground hspare hclear.later ?_
    intro loc hloc
    rcases FileSystem.dir_or_above_of_passes hground hloc with hdir | habove
    · rw [FileSystem.content?, FileSystem.content?, hdir, hclear.later.kept loc hdir]
    · rw [Path.location_spare] at habove
      exact hclear.above loc (Or.inr habove)
  rw [Output.write, Output.write, d.parent?_outputPath, Option.getD_some]
  have hsame := h.publish_same hplaced Fault.ofFile hways hplace hname ?_
    ((hmakes h.right).trans (hmakes h.left).symm) (struck.elim (.ok o.bytes) .error)
  · exact ⟨hsame, h.alike_publish hplaced Fault.ofFile hways hplace hsame⟩
  · intro made hlater hready
    have hopen := FileSystem.locateDir_of_ready hready (hground.later hlater).origin
    have hwalk := FileSystem.walk_of_ready hready
    have hdir := (FileSystem.locateDir_eq_ok.mp hopen).2
    refine ⟨_, hopen, ?_, ?_⟩
    · rw [Path.names_spare, FileSystem.origin, Path.origin_spare] at hwalk
      exact FileSystem.walk_of_kept d.settings.outputDir.components_leftOf hwalk hdir
    · rw [Path.location_spare, hlater.cwd, Path.location_join _ _ hname]

theorem removable_same :
    (∃ gs, fs'.removeFile d.stagingPath = .ok gs) ↔ ∃ gs, fs.removeFile d.stagingPath = .ok gs := by
  have hcontent := FileSystem.content?_congr h.staging_same
  rw [d.stagingPath_eq] at hcontent ⊢
  rw [FileSystem.exists_removeFile_join (hplaced.apart.download.later h.left.later) hplaced.name,
    FileSystem.exists_removeFile_join (hplaced.apart.download.later h.right.later) hplaced.name,
    h.cwd, hcontent]

theorem cleanUp : Alike before d (d.cleanUp fs) (d.cleanUp fs') := by
  have hleft := d.touched_cleanUp fs
  have hright := d.touched_cleanUp fs'
  rw [h.left.later.cwd] at hleft
  rw [h.right.later.cwd] at hright
  refine h.touched hplaced hleft hright (Set.empty_subset _) (Set.empty_subset _)
    (Set.singleton_subset_iff.mpr (Or.inl rfl)) ?_
  intro loc hloc
  rw [Set.mem_singleton_iff.mp hloc, Document.cleanUp, Document.cleanUp]
  have hplace := h.same _ (Or.inl rfl)
  by_cases hretain : d.settings.retain = true
  · rw [if_pos hretain, if_pos hretain]
    exact hplace
  · rw [if_neg hretain, if_neg hretain]
    cases hremove : fs.removeFile d.stagingPath with
    | error e =>
        cases hremove' : fs'.removeFile d.stagingPath with
        | error e' => exact hplace
        | ok gs' =>
            obtain ⟨gs, hgs⟩ := (h.removable_same hplaced).mp ⟨gs', hremove'⟩
            rw [hremove] at hgs
            cases hgs
    | ok gs =>
        obtain ⟨gs', hremove'⟩ := (h.removable_same hplaced).mpr ⟨gs, hremove⟩
        rw [hremove']
        have hgone := (FileSystem.sight?_removeFile hremove).2.2
        have hgone' := (FileSystem.sight?_removeFile hremove').2.2
        show gs'.sight? _ = gs.sight? _
        rw [hgone, hgone', Document.stagingPlace, h.left.later.cwd, h.right.later.cwd,
          Function.update_self, Function.update_self]

theorem convert {plan : Plan} (hregular : plan.processor.Regular) (hstaged : d.isStaged fs = true)
    (window : Time.Window) :
    (∃ r, (d.convert plan window fs).1 = .finished r) ∧
      (d.convert plan window fs').1 = (d.convert plan window fs).1 ∧
      Alike before d (d.convert plan window fs).2 (d.convert plan window fs').2 := by
  obtain ⟨elements, helements⟩ := hregular
  obtain ⟨bytes, hbytes⟩ := Option.isSome_iff_exists.mp (FileSystem.content?_of_isFile hstaged)
  have hstaged' : d.isStaged fs' = true := (h.isStaged hplaced).trans hstaged
  have hbytes' : fs'.content? (d.stagingPath.location fs'.cwd) = some bytes := by
    rw [h.cwd, FileSystem.content?_congr h.staging_same, hbytes]
  have hverdict := helements fs _ d.locator bytes (FileSystem.read_of_isFile hstaged hbytes)
  have hverdict' := helements fs' _ d.locator bytes (FileSystem.read_of_isFile hstaged' hbytes')
  rw [Document.convert, Document.convert, hverdict, hverdict']
  cases elements bytes d.stagingPath d.locator with
  | error f => exact ⟨⟨_, rfl⟩, rfl, h⟩
  | ok ps =>
      obtain ⟨hsame, halike⟩ := h.write hplaced
        (d.output window (plan.conditions.clock d.locator) ps) (plan.conditions.strike d.locator)
      simp only [Processing.ofExcept]
      cases hwrite : (d.output window (plan.conditions.clock d.locator) ps).write fs d.outputPath
          (plan.conditions.strike d.locator) with
      | mk r gs =>
          cases hwrite' : (d.output window (plan.conditions.clock d.locator) ps).write fs'
              d.outputPath (plan.conditions.strike d.locator) with
          | mk r' gs' =>
              rw [hwrite, hwrite'] at hsame halike
              obtain rfl : r' = r := hsame
              cases r' with
              | error f => exact ⟨⟨_, rfl⟩, rfl, halike⟩
              | ok u => exact ⟨⟨_, rfl⟩, rfl, halike⟩

end Steps

end Alike

/-! ## Steps of tasks -/

namespace Task

/-- Whether a task can go on in a tree: the download directory can be made, or the document
is staged. -/
def Fit (fs : FileSystem) : Task σ → Prop
  | .fresh d | .downloading d => (fs.makeDirs d.settings.downloadDir).1 = .ok ()
  | .probing d => d.isStaged fs = true

/-- What two steps have in common that make the same progress in two trees. -/
structure Agree (before : FileSystem) (d : Document σ) (x y : Progress σ × World σ) : Prop where
  progress : y.1 = x.1
  alike : Alike before d x.2.files y.2.files
  fit : ∀ t, x.1 = .waiting t → t.Fit y.2.files
  sound : ∀ message, x.1 ≠ .ended (.brokeDown message)

variable {before fs fs' : FileSystem} {remote remote' : σ} {d d' : Document σ} {plan : Plan}

theorem Agree.akin {x y : Progress σ × World σ} (h : Agree before d x y) (hakin : d.Akin d') :
    Agree before d' x y :=
  ⟨h.progress, h.alike.akin hakin, h.fit, h.sound⟩

theorem agree_finish (hplaced : d.Placed before) (h : Alike before d fs fs')
    (attempt : Except Fault Nat) :
    Agree before d (finish d (.finished attempt) ⟨fs, remote⟩)
      (finish d (.finished attempt) ⟨fs', remote'⟩) where
  progress := rfl
  alike := h.cleanUp hplaced
  fit _ hwaiting := by cases hwaiting
  sound _ hbroke := by cases hbroke

theorem agree_deliver (hplaced : d.Placed before) (h : Alike before d fs fs')
    (hregular : plan.processor.Regular) (hstaged : d.isStaged fs = true) (window : Time.Window) :
    Agree before d (deliver plan d window ⟨fs, remote⟩) (deliver plan d window ⟨fs', remote'⟩) := by
  obtain ⟨⟨attempt, hattempt⟩, hsame, halike⟩ := h.convert hplaced hregular hstaged window
  rw [deliver_eq, deliver_eq]
  rw [hsame, hattempt]
  exact agree_finish hplaced halike attempt

theorem agree_proceed (hplaced : d.Placed before) (h : Alike before d fs fs')
    (hregular : plan.processor.Regular) (hstaged : d.isStaged fs = true) :
    Agree before d (proceed plan d ⟨fs, remote⟩) (proceed plan d ⟨fs', remote'⟩) := by
  rw [proceed, proceed]
  cases d.window with
  | some window => exact agree_deliver hplaced h hregular hstaged window
  | none =>
      refine ⟨rfl, h, ?_, ?_⟩
      · intro t ht
        cases ht
        exact (h.isStaged hplaced).trans hstaged
      · intro message hbroke
        cases hbroke

theorem agree_begin (hplaced : d.Placed before) (h : Alike before d fs fs')
    (hregular : plan.processor.Regular) (hfit : (Task.fresh d).Fit fs') :
    Agree before d ((Task.fresh d).step plan ⟨fs, remote⟩)
      ((Task.fresh d).step plan ⟨fs', remote'⟩) := by
  rw [step, step, h.isFinished hplaced plan, h.isStaged hplaced]
  split
  · refine ⟨rfl, h.cleanUp hplaced, ?_, ?_⟩
    · intro t hwaiting
      cases hwaiting
    · intro message hbroke
      cases hbroke
  · split
    · next hthere =>
        have hakin : d.Akin d.held := ⟨rfl, rfl⟩
        exact (agree_proceed (hplaced.akin hakin) (h.akin hakin) hregular hthere).akin hakin.symm
    · refine ⟨rfl, h, ?_, ?_⟩
      · intro t ht
        cases ht
        exact hfit
      · intro message hbroke
        cases hbroke

/-- What a download leaves depends on the answer and on the place it is staged at. -/
theorem agree_download (hplaced : d.Placed before) (h : Alike before d fs fs')
    (hregular : plan.processor.Regular)
    (hmakes : (fs.makeDirs d.settings.downloadDir).1 = .ok ()) (hfit : (Task.downloading d).Fit fs')
    (hanswer : (d.source.download remote').1 = (d.source.download remote).1) :
    Agree before d ((Task.downloading d).step plan ⟨fs, remote⟩)
      ((Task.downloading d).step plan ⟨fs', remote'⟩) := by
  obtain ⟨hresult, hdocument, halike⟩ := h.receive hplaced hmakes hfit (d.source.download remote).1
  have hakin := d.akin_receive fs (d.source.download remote).1
  rw [step, step]
  simp only [hanswer]
  cases hreceive : d.receive fs (d.source.download remote).1 with
  | mk r rest =>
      cases hreceive' : d.receive fs' (d.source.download remote).1 with
      | mk r' rest' =>
          obtain ⟨d₁, gs⟩ := rest
          obtain ⟨d₂, gs'⟩ := rest'
          rw [hreceive, hreceive'] at hresult hdocument halike
          rw [hreceive] at hakin
          obtain rfl : r' = r := hresult
          obtain rfl : d₂ = d₁ := hdocument
          have hplaced' := hplaced.akin hakin
          have halike' := halike.akin hakin
          cases r' with
          | error f => exact (agree_finish hplaced' halike' (.error f)).akin hakin.symm
          | ok u =>
              obtain ⟨_, _, _, _, _, _, _, _, hfile, _⟩ :=
                Document.receive_ok (congrArg Prod.fst hreceive)
              rw [hreceive] at hfile
              have hstaged : d₂.isStaged gs = true := by
                rw [Document.isStaged, hakin.stagingPath]
                exact hfile
              exact (agree_proceed hplaced' halike' hregular hstaged).akin hakin.symm

theorem agree_probe (hplaced : d.Placed before) (h : Alike before d fs fs')
    (hregular : plan.processor.Regular) (hfit : (Task.probing d).Fit fs')
    (hanswer : (d.source.probe remote').1 = (d.source.probe remote).1) :
    Agree before d ((Task.probing d).step plan ⟨fs, remote⟩)
      ((Task.probing d).step plan ⟨fs', remote'⟩) := by
  have hakin := d.akin_learn (d.source.probe remote).1
  have hstaged : d.isStaged fs = true := (h.isStaged hplaced).symm.trans hfit
  rw [step, step]
  simp only [hanswer]
  cases hlearn : d.learn (d.source.probe remote).1 with
  | mk r d' =>
      rw [hlearn] at hakin
      have hplaced' := hplaced.akin hakin
      have halike' := h.akin hakin
      cases r with
      | error f => exact (agree_finish hplaced' halike' (.error f)).akin hakin.symm
      | ok u =>
          have hstaged' : d'.isStaged fs = true := by
            rw [Document.isStaged, hakin.stagingPath]
            exact hstaged
          exact (agree_deliver hplaced' halike' hregular hstaged' _).akin hakin.symm

/-- **A step of a task makes the same progress in two trees that are alike.** -/
theorem agree_step {t : Task σ} (hplaced : t.document.Placed before)
    (h : Alike before t.document fs fs') (hregular : plan.processor.Regular)
    (hmakes : (fs.makeDirs t.document.settings.downloadDir).1 = .ok ()) (hfit : t.Fit fs')
    (hanswers : t.document.source.answers remote' = t.document.source.answers remote) :
    Agree before t.document (t.step plan ⟨fs, remote⟩) (t.step plan ⟨fs', remote'⟩) := by
  cases t with
  | fresh d => exact agree_begin hplaced h hregular hfit
  | downloading d =>
      exact agree_download hplaced h hregular hmakes hfit (Prod.ext_iff.mp hanswers).2
  | probing d => exact agree_probe hplaced h hregular hfit (Prod.ext_iff.mp hanswers).1

end Task

end Intake
