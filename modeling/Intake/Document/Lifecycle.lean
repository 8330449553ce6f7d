import Intake.Document.Source
import Intake.Document.Stem
import Intake.Files.Publish
import Intake.Settings
import Intake.Text.Described

/-!
# The life of a document

Nothing is known of a document at first. A probe or a fetch finds out whether its source
is there. A fetch stages the content under the download directory, complete or not at
all; cleaning up removes the staged file again. The window of the content is kept from
the first probe or fetch that succeeds until it is reset.
-/

namespace Intake

open Files

inductive Presence where
  | unknown
  | present
  | absent
  deriving DecidableEq, Repr

def Presence.name : Presence → String
  | .unknown => "Unknown"
  | .present => "Present"
  | .absent => "Absent"

structure Document (σ : Type) where
  source : Source σ
  settings : Settings
  presence : Presence
  window : Option Time.Window

namespace Document

variable {σ : Type}

def ofSource (settings : Settings) (source : Source σ) : Document σ :=
  ⟨source, settings, .unknown, none⟩

def locator (d : Document σ) : String := d.source.locator

def stagedName (locator extension : String) : String :=
  let ext := extension.toList.dropWhile (· = '.')
  if ext.isEmpty then stem locator
  else String.ofList ((stem locator).toList ++ '.' :: ext)

def outputName (locator : String) : String :=
  String.ofList ((stem locator).toList ++ ".json".toList)

def stagingPath (d : Document σ) : Path :=
  d.settings.downloadDir.join (stagedName d.locator d.source.extension)

def outputPath (d : Document σ) : Path := d.settings.outputDir.join (outputName d.locator)

def hasOutput (d : Document σ) (fs : FileSystem) : Bool := fs.exists? d.outputPath

/-- What a probe that was answered tells: presence and window. -/
def observed : Probe → Except Fault (Presence × Time.Window)
  | .absent => .ok (.absent, .empty)
  | .present stamps => (windowOf stamps).map fun w => (.present, w)

/-- The document after its source answered a probe. Presence and window are taken over together or
not at all; a window that is known already stays. -/
def learn (d : Document σ) : Except Fault Probe → Except Fault Unit × Document σ
  | .error f => (.error (f.atSource d.locator), d)
  | .ok found =>
    match observed found with
    | .error f => (.error f, d)
    | .ok (presence, window) =>
      (.ok (), { d with presence := presence, window := some (d.window.getD window) })

def probe (d : Document σ) (remote : σ) : Except Fault Unit × Document σ × σ :=
  let (answer, remote) := d.source.probe remote
  let (r, d) := d.learn answer
  (r, d, remote)

/-- Whether the source is there. It is probed if nothing is known. -/
def isThere (d : Document σ) (remote : σ) : Except Fault Bool × Document σ × σ :=
  if d.presence = .unknown then
    match d.probe remote with
    | (.error f, d, remote) => (.error f, d, remote)
    | (.ok (), d, remote) => (.ok (d.presence == .present), d, remote)
  else (.ok (d.presence == .present), d, remote)

/-- The window of the content. The source is probed if it is not known. -/
def findWindow (d : Document σ) (remote : σ) : Except Fault Time.Window × Document σ × σ :=
  match d.window with
  | some w => (.ok w, d, remote)
  | none =>
    match d.probe remote with
    | (.error f, d, remote) => (.error f, d, remote)
    | (.ok (), d, remote) => (.ok (d.window.getD .empty), d, remote)

def resetWindow (d : Document σ) : Document σ := { d with window := none }

/-- The document after a fetch that failed. -/
def lost (d : Document σ) : Document σ := { d with presence := .absent }

/-- The window of a download, unless it is known. -/
def windowFor (d : Document σ) (download : Download) : Except Fault Time.Window :=
  match d.window with
  | some w => .ok w
  | none => windowOf download.stamps

def stage (d : Document σ) (fs : FileSystem) (download : Download) :
    Except Fault Unit × FileSystem :=
  fs.publish Fault.ofFile d.settings.downloadDir d.stagingPath download.content

def isStaged (d : Document σ) (fs : FileSystem) : Bool := fs.isFile d.stagingPath

/-- The document with a staged file. -/
def held (d : Document σ) : Document σ := { d with presence := .present }

/-- The document and the files after its source answered a download: the content is staged, or the
fetch failed. -/
def receive (d : Document σ) (fs : FileSystem) :
    Except Fault Download → Except Fault Unit × Document σ × FileSystem
  | .error f => (.error (f.atSource d.locator), d.lost, fs)
  | .ok download =>
    match d.windowFor download with
    | .error f => (.error f, d.lost, fs)
    | .ok window =>
      match d.stage fs download with
      | (.error f, fs) => (.error f, d.lost, fs)
      | (.ok (), fs) => (.ok (), { d.held with window := some window }, fs)

/-- Stages the content. The source is not asked if there is a staged file. -/
def fetch (d : Document σ) (w : World σ) : Except Fault Unit × Document σ × World σ :=
  if d.isStaged w.files then (.ok (), d.held, w)
  else
    let (answer, remote) := d.source.download w.remote
    let (r, d, files) := d.receive w.files answer
    (r, d, ⟨files, remote⟩)

/-- Removes the staged file unless it is to be kept. A failure to do so changes nothing. -/
def cleanUp (d : Document σ) (fs : FileSystem) : FileSystem :=
  if d.settings.retain then fs
  else (fs.removeFile d.stagingPath).toOption.getD fs

/-! ## Descriptions -/

def describeWindow (w : Time.Window) : String :=
  Text.describeRecord "FileMeta"
    [("created_at", Text.describeOption (w.createdAt.map (·.text))),
      ("modified_at", Text.describeOption (w.modifiedAt.map (·.text)))]

def describe (d : Document σ) : String :=
  Text.describeRecord "StagedDoc"
    [("locator", Text.quote d.locator), ("materialized", d.presence.name),
      ("metadata", Text.describeOption (d.window.map describeWindow))]

end Document

end Intake
