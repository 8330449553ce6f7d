import Intake.Document.Lifecycle
import Intake.Files.Pruning

/-!
# Connectors

A connector lists the sources of one remote place. Before a run it makes the download
directory, and after it, it removes the directories that were left empty there.
-/

namespace Intake

open Files

structure Connector (σ : Type) where
  name : String
  settings : Settings
  /-- The sources, each locator once. -/
  list : σ → Except Fault (List (Source σ)) × σ

namespace Connector

variable {σ : Type}

def prepare (c : Connector σ) (fs : FileSystem) : Except Fault Unit × FileSystem :=
  match fs.makeDirs c.settings.downloadDir with
  | (.ok (), fs) => (.ok (), fs)
  | (.error e, fs) => (.error (.ofFile e), fs)

def documents (c : Connector σ) (remote : σ) : Except Fault (List (Document σ)) × σ :=
  match c.list remote with
  | (.ok sources, remote) => (.ok (sources.map (Document.ofSource c.settings)), remote)
  | (.error f, remote) => (.error f, remote)

/-- Removes empty directories in the download directory unless its content is to be kept. -/
def cleanUp (c : Connector σ) (fs : FileSystem) : FileSystem :=
  if c.settings.retain then fs else (fs.pruneAt c.settings.downloadDir).2

end Connector

end Intake
