import Intake.Drive.Config
import Intake.Drive.Item
import Intake.Drive.Walk
import Intake.Run.Connector
import Intake.Run.Distinct

/-!
# The connector to a drive

Each file that is wanted and can be downloaded is one document, however often it is found.
-/

namespace Intake.Drive

open Http (Client Network)

structure Volume (σ : Type) where
  settings : Settings
  config : Config
  client : Client σ

namespace Volume

variable {σ : Type}

/-- The volume of a configuration; the settings have to be fit for a run. -/
def ofConfig (network : Network σ) (patience : Nat) (settings : Settings) (config : Config) :
    Except Fault (Volume σ) := do
  settings.validate
  .ok ⟨settings, config, .ofUrl network patience config.url config.token⟩

/-- The files of which the item to begin with consists. -/
def candidates (v : Volume σ) (remote : σ) : Except Fault (List File) × σ :=
  match file? v.client v.config.root remote with
  | (.error f, remote) => (.error f, remote)
  | (.ok none, remote) => (.error (.unavailable v.config.root .notFound), remote)
  | (.ok (some root), remote) =>
    if root.isFolder then filesOf v.client v.config.recursive root.id remote
    else (.ok [root], remote)

def wanted (v : Volume σ) (files : List File) : List File :=
  Run.firsts (·.id) (files.filter fun f => f.isDownloadable && v.config.accepts f)

def sources (v : Volume σ) (remote : σ) : Except Fault (List (Source σ)) × σ :=
  match v.candidates remote with
  | (.error f, remote) => (.error f, remote)
  | (.ok files, remote) =>
    (.ok ((v.wanted files).map fun f => Item.source ⟨f, v.client⟩), remote)

def connector (v : Volume σ) : Connector σ := ⟨"google-drive", v.settings, v.sources⟩

def describe (v : Volume σ) : String :=
  Text.describeRecord "GoogleDriveConnector"
    [("settings", v.settings.describe), ("config", v.config.describe),
      ("client", Item.describeClient v.client)]

end Volume

end Intake.Drive
