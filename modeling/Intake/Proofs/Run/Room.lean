import Intake.Proofs.Files.Aside
import Intake.Proofs.Run.Effects

/-!
# Room for the files of a document

A file system has room for a document if its two directories can be made, if the names of its
two files can be used in them, and if nothing is in the places of these files. There the work
on a document comes to a result whenever its source answers and its content can be processed.
-/

namespace Intake

open Files

namespace Files

/-- Whether a name can be used for a file in a directory. -/
structure Path.Accepts (dir : Path) (name : String) : Prop where
  text : '\x00' ∉ (dir.join name).text.toList
  length : name.utf8ByteSize ≤ nameLimit

namespace FileSystem

/-- Where something is missing after directories were made, it was missing before. -/
theorem missing_of_touched {dirs : Set Location} {before after : FileSystem}
    (h : Touched ∅ dirs before after) {loc : Location} (hnone : after.sight? loc = none) :
    before.sight? loc = none := by
  by_contra hsome
  have hsame := ((Later.refl before).touched h).sight? (Option.ne_none_iff_isSome.mp hsome)
    (h.contents loc (Set.notMem_empty loc))
  exact hsome (hsame ▸ hnone)

/-- Nothing exists at the end of a path that names a place where nothing is. -/
theorem exists?_of_missing {fs : FileSystem} {p : Path}
    (hnone : fs.sight? (p.location fs.cwd) = none) : fs.exists? p = false := by
  rw [Bool.eq_false_iff, ne_eq, exists?_iff]
  rintro ⟨loc, hlocate⟩
  have hend := (locate_eq_ok.mp hlocate).2.2
  rw [location_of_locate hlocate, hnone] at hend
  rcases hend with hdir | ⟨_, _, hfile⟩
  · cases hdir
  · cases hfile

theorem isFile_of_missing {fs : FileSystem} {p : Path}
    (hnone : fs.sight? (p.location fs.cwd) = none) : fs.isFile p = false := by
  rw [Bool.eq_false_iff]
  intro hfile
  have hcontent := content?_of_isFile hfile
  rw [content?, hnone] at hcontent
  cases hcontent

/-- Every path begins at a directory if there is a current one. -/
theorem dir_origin {fs : FileSystem} (hcurrent : fs.sight? fs.cwd = some .directory) (p : Path) :
    fs.sight? (fs.origin p) = some .directory := by
  rw [origin, Path.origin]
  split
  · exact sight?_of_prefix List.nil_prefix hcurrent
  · exact hcurrent

/-- A directory that was made can be opened. -/
theorem locateDir_of_makeDirs {fs made : FileSystem} {dir : Path}
    (hcurrent : fs.sight? fs.cwd = some .directory) (hmade : fs.makeDirs dir = (.ok (), made)) :
    made.locateDir dir = .ok (dir.location fs.cwd) := by
  have htouched := touched_makeDirs fs dir
  rw [hmade] at htouched
  have hcurrent' : made.sight? made.cwd = some .directory := by
    rw [htouched.cwd]
    exact htouched.kept _ hcurrent
  rw [← htouched.cwd]
  exact locateDir_of_ready (isDir_of_makeDirs hmade) (dir_origin hcurrent' dir)

/-- The way along a path is open after its directory was made, with its components alone. -/
theorem walk_of_spare {fs made : FileSystem} {p : Path}
    (hcurrent : fs.sight? fs.cwd = some .directory) (hmade : fs.makeDirs p.spare = (.ok (), made)) :
    made.walk (made.origin p) p.names = .ok (p.location fs.cwd) := by
  have hopen := locateDir_of_makeDirs hcurrent hmade
  have hcwd := (touched_makeDirs fs p.spare).cwd
  rw [hmade] at hcwd
  have hwalk := walk_of_ready (isDir_of_makeDirs hmade)
  rw [Path.location_spare, hcwd, Path.names_spare, origin, Path.origin_spare] at hwalk
  rw [Path.location_spare] at hopen
  exact walk_of_kept p.components_leftOf hwalk (locateDir_eq_ok.mp hopen).2

/-- A complete file appears in a directory that was made, under a name that can be used there and
that no directory has. -/
theorem publish_written {ε : Type} (ofFile : FileError → ε) {fs made : FileSystem} {dir p : Path}
    {name : String} (hname : Path.OrdinaryName name) (haccepts : p.Accepts name)
    (hmade : fs.makeDirs dir = (.ok (), made))
    (hopen : made.locateDir dir = .ok (p.location fs.cwd))
    (hwalk : made.walk (made.origin p) p.names = .ok (p.location fs.cwd))
    (hfree : made.sight? ((p.join name).location fs.cwd) ≠ some .directory) (bytes : ByteArray) :
    ∃ after, fs.publish ofFile dir (p.join name) (.ok bytes) = (.ok (), after) ∧
      Written ((p.join name).location fs.cwd) bytes made after ∧
      after.isFile (p.join name) = true := by
  have hresult : (fs.publish ofFile dir (p.join name) (.ok bytes)).1 = landing ofFile (p.join name)
      name (made.sight? (p.location fs.cwd ++ [name])) (.ok bytes) :=
    publish_opened hname hmade hopen hwalk _
  rw [← Path.location_join p fs.cwd hname, landing, if_neg haccepts.text,
    if_neg (Nat.not_lt.mpr haccepts.length), if_neg hfree] at hresult
  rcases @publish_cases ε ofFile fs dir (p.join name) (.ok bytes) with
    ⟨_, herror, _⟩ | ⟨_, _, hbytes, hwritten, hfile⟩
  · rw [hresult] at herror
    cases herror
  · cases hbytes
    rw [hmade] at hwritten
    exact ⟨_, Prod.ext hresult rfl, hwritten, hfile⟩

end FileSystem

end Files

namespace Document

variable {σ : Type} {d : Document σ} {fs : FileSystem}

/-- Whether a file system has room for the files of a document. -/
structure Room (d : Document σ) (fs : FileSystem) : Prop where
  current : fs.sight? fs.cwd = some .directory
  stagedName : d.settings.downloadDir.Accepts (stagedNameOf d.source)
  outputName : d.settings.outputDir.Accepts (outputName d.locator)
  /-- Both directories can be made, one after the other, and then nothing is where the files
  belong. -/
  directories : ∃ opened ready,
    fs.makeDirs d.settings.downloadDir = (.ok (), opened) ∧
    opened.makeDirs d.settings.outputDir.spare = (.ok (), ready) ∧
    ready.sight? (d.stagingPlace fs.cwd) = none ∧ ready.sight? (d.outputPlace fs.cwd) = none

/-- Nothing is staged, and there is no result yet. -/
theorem Room.untouched (h : Room d fs) : d.isStaged fs = false ∧ d.hasOutput fs = false := by
  obtain ⟨opened, ready, hopened, hready, hstaged, houtput⟩ := h.directories
  have hfirst := FileSystem.touched_makeDirs fs d.settings.downloadDir
  have hsecond := FileSystem.touched_makeDirs opened d.settings.outputDir.spare
  rw [hopened] at hfirst
  rw [hready] at hsecond
  have hbefore {loc : Location} (hnone : ready.sight? loc = none) : fs.sight? loc = none :=
    FileSystem.missing_of_touched hfirst (FileSystem.missing_of_touched hsecond hnone)
  exact ⟨FileSystem.isFile_of_missing (hbefore hstaged),
    FileSystem.exists?_of_missing (hbefore houtput)⟩

/-- A result is left by the cleaning up if the staged file stood elsewhere. -/
theorem read_cleanUp {bytes : ByteArray} (hplaces : d.stagingPlace fs.cwd ≠ d.outputPlace fs.cwd)
    (hread : fs.read d.outputPath = .ok bytes) (hfile : fs.isFile d.outputPath = true) :
    (d.cleanUp fs).read d.outputPath = .ok bytes := by
  have htouched := d.touched_cleanUp fs
  have hcontent : (d.cleanUp fs).content? (d.outputPlace fs.cwd) = some bytes :=
    (htouched.contents _ fun hmem => hplaces (Set.mem_singleton_iff.mp hmem).symm).trans
      (FileSystem.content?_of_read hread)
  refine FileSystem.read_of_isFile ?_ (by rwa [htouched.cwd])
  refine FileSystem.isFile_mono htouched.cwd htouched.kept ?_ hfile
  rw [← outputPlace, hcontent]
  rfl

/-- Where there is room, any content can be staged, and then any result can be written. -/
theorem Room.stages (h : Room d fs) (hname : Path.OrdinaryName (stagedNameOf d.source))
    (hplaces : d.stagingPlace fs.cwd ≠ d.outputPlace fs.cwd) (stamps : List String)
    (bytes : ByteArray) :
    ∃ staged ready, d.stage fs ⟨stamps, .ok bytes⟩ = (.ok (), staged) ∧
      staged.cwd = fs.cwd ∧ staged.sight? staged.cwd = some .directory ∧
      staged.read d.stagingPath = .ok bytes ∧
      staged.makeDirs d.settings.outputDir.spare = (.ok (), ready) ∧
      ready.sight? (d.outputPlace fs.cwd) = none := by
  obtain ⟨opened, ready, hopened, hready, hstaged, houtput⟩ := h.directories
  have hfirst := FileSystem.touched_makeDirs fs d.settings.downloadDir
  have hsecond := FileSystem.touched_makeDirs opened d.settings.outputDir.spare
  rw [hopened] at hfirst
  rw [hready] at hsecond
  have hfree : opened.sight? (d.stagingPlace fs.cwd) ≠ some .directory := by
    rw [FileSystem.missing_of_touched hsecond hstaged]
    simp
  have hwalk := FileSystem.walk_of_ready (FileSystem.isDir_of_makeDirs hopened)
  rw [hfirst.cwd] at hwalk
  obtain ⟨staged, hstage, hthere, hfile⟩ := FileSystem.publish_written Fault.ofFile hname
    h.stagedName hopened (FileSystem.locateDir_of_makeDirs h.current hopened) hwalk hfree bytes
  change Written (d.stagingPlace fs.cwd) bytes opened staged at hthere
  have hcwd : staged.cwd = fs.cwd := hthere.cwd.trans hfirst.cwd
  have hcontent : staged.content? (d.stagingPath.location staged.cwd) = some bytes := by
    rw [hcwd, ← stagingPlace, FileSystem.content?_eq_some, hthere.sight]
    exact Function.update_self ..
  -- the staged file is not in the way of the result
  obtain ⟨ready', hready', hbeside⟩ := hthere.makeDirs_ok hready (by rw [hstaged]; simp)
  refine ⟨staged, ready', hstage, hcwd, ?_, FileSystem.read_of_isFile hfile hcontent, hready', ?_⟩
  · rw [hcwd]
    exact hthere.touched.kept _ (hfirst.kept _ h.current)
  · rw [hbeside.sight, Function.update_of_ne hplaces.symm, houtput]

/-- What room serves for: whatever is staged can be read, whatever the result is can be written
then, and it can be read after the cleaning up. -/
theorem Room.serves (h : Room d fs) (hname : Path.OrdinaryName (stagedNameOf d.source))
    (hplaces : d.stagingPlace fs.cwd ≠ d.outputPlace fs.cwd) (stamps : List String)
    (bytes : ByteArray) :
    ∃ staged, d.stage fs ⟨stamps, .ok bytes⟩ = (.ok (), staged) ∧
      staged.read d.stagingPath = .ok bytes ∧
      ∀ o : Output, ∃ made, o.write staged d.outputPath = (.ok (), made) ∧
        (d.cleanUp made).read d.outputPath = .ok o.bytes := by
  obtain ⟨staged, ready, hstage, hcwd, hcurrent, hread, hready, hfree⟩ :=
    h.stages hname hplaces stamps bytes
  refine ⟨staged, hstage, hread, fun o => ?_⟩
  have hopen := FileSystem.locateDir_of_makeDirs hcurrent hready
  rw [Path.location_spare] at hopen
  have hfree' : ready.sight? (d.outputPath.location staged.cwd) ≠ some .directory := by
    rw [hcwd, ← outputPlace, hfree]
    simp
  obtain ⟨made, hmade, hwritten, hfile⟩ := FileSystem.publish_written Fault.ofFile
    (ordinaryName_outputName d.locator) h.outputName hready hopen
    (FileSystem.walk_of_spare hcurrent hready) hfree' o.bytes
  change Written (d.outputPath.location staged.cwd) o.bytes ready made at hwritten
  have hmadeCwd : made.cwd = staged.cwd := by
    have hlast := FileSystem.touched_makeDirs staged d.settings.outputDir.spare
    rw [hready] at hlast
    exact hwritten.cwd.trans hlast.cwd
  refine ⟨made, ?_, read_cleanUp ?_ ?_ hfile⟩
  · rw [Output.write, parent?_outputPath]
    exact hmade
  · rw [hmadeCwd, hcwd]
    exact hplaces
  · refine FileSystem.read_of_isFile hfile ?_
    rw [FileSystem.content?_eq_some, hmadeCwd, hwritten.sight]
    exact Function.update_self ..

/-! ## Work with room -/

variable {plan : Plan} {w : World σ}

/-- The fetch of a document that has room stages what its source answers. -/
theorem fetch_of_room {stamps : List String} {bytes : ByteArray} {window : Time.Window}
    {remote : σ} {staged : FileSystem} (hfresh : d.window = none) (hroom : Room d w.files)
    (hanswer : d.source.download w.remote = (.ok ⟨stamps, .ok bytes⟩, remote))
    (hwindow : windowOf stamps = .ok window)
    (hstage : d.stage w.files ⟨stamps, .ok bytes⟩ = (.ok (), staged)) :
    d.fetch w = (.ok (), { d.held with window := some window }, ⟨staged, remote⟩) := by
  rw [fetch, hroom.untouched.1]
  simp only [Bool.false_eq_true, if_false, hanswer, receive, windowFor, hfresh, hwindow, hstage]

theorem convert_of_written {window : Time.Window} {ps : List Element.Paragraph}
    {made : FileSystem} (hps : plan.processor fs d.stagingPath d.locator = .elements ps)
    (hspared : plan.conditions.strike d.locator = none)
    (hmade : (d.output window (plan.conditions.clock d.locator) ps).write fs d.outputPath =
      (.ok (), made)) :
    d.convert plan window fs = (.finished (.ok ps.length), made) := by
  rw [convert, hps]
  simp only [hspared, hmade]

/-- **Documents with room.** A document of which nothing is known is processed if there is room for
it, its source answers with time stamps that can be read, its content can be made into elements,
and no fault strikes while its result is written; its result is written then and is left by the
cleaning up. -/
theorem work_of_room {stamps : List String} {bytes : ByteArray} {window : Time.Window}
    {remote : σ} {ps : List Element.Paragraph} (hfresh : d.window = none)
    (hroom : Room d w.files) (hname : Path.OrdinaryName (stagedNameOf d.source))
    (hplaces : d.stagingPlace w.files.cwd ≠ d.outputPlace w.files.cwd)
    (hspared : plan.conditions.strike d.locator = none)
    (hanswer : d.source.download w.remote = (.ok ⟨stamps, .ok bytes⟩, remote))
    (hwindow : windowOf stamps = .ok window)
    (hprocess : ∀ staged : FileSystem, staged.read d.stagingPath = .ok bytes →
      plan.processor staged d.stagingPath d.locator = .elements ps) :
    (d.work plan w).1 = .finished (.processed d.locator ps.length) ∧
      (d.work plan w).2.files.read d.outputPath =
        .ok (d.output window (plan.conditions.clock d.locator) ps).bytes := by
  obtain ⟨staged, hstage, hread, hwrite⟩ := hroom.serves hname hplaces stamps bytes
  obtain ⟨made, hmade, hresult⟩ := hwrite (d.output window (plan.conditions.clock d.locator) ps)
  have hfetch := fetch_of_room hfresh hroom hanswer hwindow hstage
  have hnotFinished : d.isFinished plan w.files = false := by
    rw [isFinished, hroom.untouched.2, Bool.and_false]
  -- what was learned by the fetch changes neither the paths nor the result
  have hconvert : { d.held with window := some window }.convert plan window staged =
      (.finished (.ok ps.length), made) :=
    convert_of_written (hprocess staged hread) hspared hmade
  have hwork : d.work plan w =
      (.finished (.processed d.locator ps.length), ⟨d.cleanUp made, remote⟩) := by
    unfold work ingest
    simp only [hnotFinished, hfetch, findWindow, hconvert]
    rfl
  rw [hwork]
  exact ⟨rfl, hresult⟩

end Document

end Intake
