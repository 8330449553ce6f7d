import Intake.CommandLine.Arguments
import Intake.Settings

/-!
# Invocations

What the arguments and the environment together tell a program to do. An option after the
command counts more than one before it; both count more than a variable, and a variable
more than what is usual.
-/

namespace Intake.CommandLine

inductive Job where
  | slack (channels token : String) (oldest latest : Option String)
  | drive (root token : String) (extension : Option String) (recursive : Bool)
  deriving DecidableEq, Repr

structure Invocation where
  settings : Settings
  job : Job
  deriving DecidableEq

def usualOutputDir : Files.Path := ⟨"./docflow-output"⟩

/-- Refuses variables with values that do not fit, where they are needed, and missing options. -/
def check (options : List Spec) (given : Given) (e : Environment) : Except Stop Unit :=
  let fits (s : Spec) : Bool :=
    match given.lookup s.name, s.fromEnv e with
    | some _, _ => true
    | none, some value => s.kind.accepts value
    | none, none => !s.required
  if options.all fits then .ok () else .error .misused

/-- Asks for help on a command: nothing but the name of at most one command may follow. -/
def help : List String → Stop
  | [] => .asked
  | [name] => if name = "help" ∨ (Verb.ofName? name).isSome then .asked else .misused
  | _ => .misused

/-- All that is given, the most important first. -/
def collect (options : List Spec) (after before : Given) (e : Environment) : Given :=
  after ++ before ++ options.filterMap fun s => (s.fromEnv e).map fun value => (s.name, value)

def isOn (given : Given) (name : String) : Bool := given.lookup name == some "true"

/-- A count that was checked before. -/
def countOf (value : String) : Nat :=
  (Text.Decimal.readBelow 18446744073709551616 value.toList).getD 0

def settingsOf (given : Given) (e : Environment) : Settings where
  downloadDir := ((given.lookup "download-dir").map Files.Path.mk).getD
    (Settings.defaultDownloadDir e)
  outputDir := ((given.lookup "output-dir").map Files.Path.mk).getD usualOutputDir
  retain := isOn given "preserve-downloads"
  reprocess := isOn given "reprocess"
  concurrency := ((given.lookup "concurrency").map countOf).getD Settings.defaultConcurrency
  verbose := isOn given "verbose"

def textOf (given : Given) (name : String) : String := (given.lookup name).getD ""

def jobOf (given : Given) : Verb → Job
  | .slack => .slack (textOf given "channels") (textOf given "token") (given.lookup "oldest")
      (given.lookup "latest")
  | .drive => .drive (textOf given "drive-id") (textOf given "token")
      (given.lookup "extension") (isOn given "recursive")

def readAfter (v : Verb) (args : List String) (e : Environment) : Except Stop Given := do
  let place := Place.after v
  match ← place.read .start args with
  | .verb _ _ _ => .error .misused
  | .done p =>
    let given ← p.settle
    check place.options given e
    .ok given

def Invocation.read (args : List String) (e : Environment) : Except Stop Invocation := do
  match ← Place.program.read .start args with
  | .done _ => .error .misused
  | .verb p name rest =>
    match Verb.ofName? name with
    | none => .error (help rest)
    | some v =>
      let after ← readAfter v rest e
      let before ← p.settle
      check commonOptions before e
      let given := collect (Place.after v).options after before e
      .ok ⟨settingsOf given e, jobOf given v⟩

end Intake.CommandLine
