import Intake.CommandLine.Invocation
import Intake.Drive.Volume
import Intake.Environment.File
import Intake.Logging.Start
import Intake.Run.Runner
import Intake.Slack.Workspace

/-!
# The program

From arguments, environment and files to the end of the program: variables are read from a
file, the arguments are understood, the log is set up, and then one connector is run. The
program fails when it cannot run the connector and when a document failed.
-/

namespace Intake.CommandLine

inductive Exit where
  | success
  | stopped (reason : Stop)
  | failure (message : String)
  | brokeDown (message : String)
  deriving DecidableEq, Repr

def Exit.code : Exit → Nat
  | .success => 0
  | .stopped .asked => 0
  | .stopped .misused => 2
  | .failure _ => 1
  | .brokeDown _ => 101

def usualLogging (verbose : Bool) : Logging.Config :=
  { Logging.Config.default with
    level := if verbose then .debug else .info
    stem := "docflow-ingest" }

/-- What is decided outside of the program. -/
structure Circumstances (σ : Type) where
  network : Http.Network σ
  patience : Nat
  conditions : Conditions
  schedule : Schedule

namespace Invocation

variable {σ : Type}

def connector (i : Invocation) (c : Circumstances σ) : Except Fault (Connector σ) :=
  match i.job with
  | .slack channels token oldest latest => do
    let config ← Slack.Config.ofText (Slack.Config.readChannels channels) token oldest latest
    let w ← Slack.Workspace.ofConfig c.network c.patience i.settings
      { config with verbose := i.settings.verbose }
    .ok w.connector
  | .drive root token extension recursive => do
    let config ← Drive.Config.ofText root token extension recursive
    let v ← Drive.Volume.ofConfig c.network c.patience i.settings config
    .ok v.connector

def exitOf : Ending (Except Fault Summary) → Exit
  | .brokeDown message => .brokeDown message
  | .finished (.error f) => .failure f.message
  | .finished (.ok s) =>
    if s.isSuccess then .success
    else .failure (String.ofList (Text.Decimal.digits s.failed) ++ " document(s) failed")

def run (i : Invocation) (e : Environment) (c : Circumstances σ) (w : World σ) :
    Exit × World σ :=
  match (usualLogging i.settings.verbose).extend e with
  | .error problem => (.failure problem.message, w)
  | .ok logging =>
    match logging.start w.files with
    | (.error problem, files) => (.failure problem.message, { w with files := files })
    | (.ok (), files) =>
      let w := { w with files := files }
      match i.connector c with
      | .error f => (.failure f.message, w)
      | .ok connector =>
        let processor := Processing.processor Processing.defaultCleaners
        let (ending, w) := connector.run processor c.conditions c.schedule w
        (exitOf ending, w)

def directories (i : Invocation) (e : Environment) : List Files.Path :=
  let logging := ((usualLogging i.settings.verbose).extend e).toOption.map (·.directory)
  [i.settings.downloadDir, i.settings.outputDir] ++ logging.toList

end Invocation

/-- The names of the variables that the program looks at, apart from those in a file. -/
def variableNames : List String :=
  ["HOME", "XDG_CACHE_HOME", "DOCFLOW_LOG_LEVEL", "DOCFLOW_LOG_OUTPUT", "DOCFLOW_LOG_FORMAT",
    "DOCFLOW_LOG_DIR", "DOCFLOW_LOG_FILTER"] ++
    (commonOptions ++ Verb.slack.options ++ Verb.drive.options).filterMap (·.envName)

def program {σ : Type} (args : List String) (e : Environment) (c : Circumstances σ)
    (w : World σ) : Exit × World σ :=
  let e := e.load w.files
  match Invocation.read args e with
  | .error reason => (.stopped reason, w)
  | .ok i => i.run e c w

end Intake.CommandLine
