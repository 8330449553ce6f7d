import Intake.Run.Connector
import Intake.Run.Queue

/-!
# Runs

A run makes the download directory, lists the documents of a connector and works on all of
them, on several at a time as far as the settings allow. However it ends, it cleans up
after the connector.
-/

namespace Intake.Connector

variable {σ : Type}

def bound (c : Connector σ) : Nat := max 1 c.settings.concurrency

def plan (c : Connector σ) (processor : Processor) (conditions : Conditions) : Plan :=
  ⟨processor, conditions, c.settings.reprocess⟩

/-- Makes the download directory, lists the documents and works on them. -/
def workOn (c : Connector σ) (processor : Processor) (conditions : Conditions) (schedule : Schedule)
    (w : World σ) : Ending (Except Fault Summary) × World σ :=
  match c.prepare w.files with
  | (.error f, files) => (.finished (.error f), { w with files := files })
  | (.ok (), files) =>
    match c.documents w.remote with
    | (.error f, remote) => (.finished (.error f), ⟨files, remote⟩)
    | (.ok ds, remote) =>
      let (ending, w) :=
        (Queue.ofDocuments ds).run (c.plan processor conditions) c.bound schedule 0 ⟨files, remote⟩
      (ending.map fun outcomes => .ok (.ofOutcomes outcomes), w)

def run (c : Connector σ) (processor : Processor) (conditions : Conditions) (schedule : Schedule)
    (w : World σ) : Ending (Except Fault Summary) × World σ :=
  let (ending, w) := c.workOn processor conditions schedule w
  (ending, { w with files := c.cleanUp w.files })

end Intake.Connector
