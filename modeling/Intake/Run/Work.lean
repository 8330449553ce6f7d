import Intake.Document.Lifecycle
import Intake.Output
import Intake.Processing
import Intake.Run.Outcome

/-!
# The work on one document

A document that has its result already is skipped; any other one is fetched, processed and
written. Whatever happens, its staged file is removed as soon as the work is finished.
-/

namespace Intake

open Files

/-- What the work on documents meets with from outside, by their locators: the time at which a
result is made, and the fault that strikes while it is written. -/
structure Conditions where
  clock : String → Time.Instant
  strike : String → Option Fault

def Conditions.steady (now : Time.Instant) : Conditions := ⟨fun _ => now, fun _ => none⟩

instance : Coe Time.Instant Conditions := ⟨.steady⟩

structure Plan where
  processor : Processor
  conditions : Conditions
  reprocess : Bool

namespace Document

variable {σ : Type}

/-- Whether there is nothing to do. -/
def isFinished (d : Document σ) (plan : Plan) (fs : FileSystem) : Bool :=
  !plan.reprocess && d.hasOutput fs

def output (d : Document σ) (window : Time.Window) (now : Time.Instant)
    (elements : List Element.Paragraph) : Output :=
  ⟨d.locator, d.stagingPath.fileName?.getD "", window, now, elements⟩

/-- Processes the staged file and writes the result; gives the number of elements. -/
def convert (d : Document σ) (plan : Plan) (window : Time.Window) (fs : FileSystem) :
    Ending (Except Fault Nat) × FileSystem :=
  match plan.processor fs d.stagingPath d.locator with
  | .brokeDown message => (.brokeDown message, fs)
  | .failed f => (.finished (.error f), fs)
  | .elements ps =>
    match (d.output window (plan.conditions.clock d.locator) ps).write fs d.outputPath
        (plan.conditions.strike d.locator) with
    | (.ok (), fs) => (.finished (.ok ps.length), fs)
    | (.error f, fs) => (.finished (.error f), fs)

def ingest (d : Document σ) (plan : Plan) (w : World σ) :
    Ending (Except Fault Nat) × Document σ × World σ :=
  match d.fetch w with
  | (.error f, d, w) => (.finished (.error f), d, w)
  | (.ok (), d, w) =>
    match d.findWindow w.remote with
    | (.error f, d, remote) => (.finished (.error f), d, { w with remote := remote })
    | (.ok window, d, remote) =>
      let (ending, files) := d.convert plan window w.files
      (ending, d, ⟨files, remote⟩)

def conclude (d : Document σ) (attempt : Ending (Except Fault Nat)) (fs : FileSystem) :
    Ending Outcome × FileSystem :=
  (attempt.map (.ofAttempt d.locator), d.cleanUp fs)

def work (d : Document σ) (plan : Plan) (w : World σ) : Ending Outcome × World σ :=
  if d.isFinished plan w.files then
    (.finished (.skipped d.locator), { w with files := d.cleanUp w.files })
  else
    let (attempt, d, w) := d.ingest plan w
    let (ending, files) := d.conclude attempt w.files
    (ending, { w with files := files })

end Document

end Intake
