import Intake.Environment
import Intake.Text.Decimal

/-!
# Options

What may stand on the command line. Some options are valid before the command and after
it; the others belong to one command. An option may also be given by a variable of the
environment.
-/

namespace Intake.CommandLine

inductive Kind where
  | text
  | path
  | count
  | switch
  deriving DecidableEq, Repr

/-- Whether a value is one that an option of this kind can have. A switch has a value where a
variable sets it. -/
def Kind.accepts : Kind → String → Bool
  | .text, _ => true
  | .path, value => !value.isEmpty
  | .count, value => (Text.Decimal.readBelow 18446744073709551616 value.toList).isSome
  | .switch, value => value == "true" || value == "false"

structure Spec where
  name : String
  kind : Kind
  letter : Option Char
  envName : Option String
  required : Bool
  deriving DecidableEq, Repr

namespace Spec

def optional (name : String) (kind : Kind) : Spec := ⟨name, kind, none, none, false⟩

def withEnv (s : Spec) (envName : String) : Spec := { s with envName := some envName }

def mandatory (s : Spec) : Spec := { s with required := true }

def fromEnv (s : Spec) (e : Environment) : Option String := s.envName.bind e.get?

end Spec

def commonOptions : List Spec := [
  (Spec.optional "download-dir" .path).withEnv "DOCFLOW_DOWNLOAD_DIR",
  (Spec.optional "output-dir" .path).withEnv "DOCFLOW_OUTPUT_DIR",
  (Spec.optional "preserve-downloads" .switch).withEnv "DOCFLOW_PRESERVE_DOWNLOADS",
  (Spec.optional "reprocess" .switch).withEnv "DOCFLOW_REPROCESS",
  (Spec.optional "concurrency" .count).withEnv "DOCFLOW_CONCURRENCY",
  { Spec.optional "verbose" .switch with letter := some 'v' }]

inductive Verb where
  | slack
  | drive
  deriving DecidableEq, Repr

namespace Verb

def name : Verb → String
  | .slack => "slack"
  | .drive => "google-drive"

def ofName? (name : String) : Option Verb :=
  [Verb.slack, Verb.drive].find? fun v => v.name == name

def options : Verb → List Spec
  | .slack => [
    (Spec.optional "channels" .text).mandatory,
    ((Spec.optional "token" .text).withEnv "SLACK_TOKEN").mandatory,
    Spec.optional "oldest" .text,
    Spec.optional "latest" .text]
  | .drive => [
    (Spec.optional "drive-id" .text).mandatory,
    ((Spec.optional "token" .text).withEnv "GOOGLE_DRIVE_TOKEN").mandatory,
    Spec.optional "extension" .text,
    Spec.optional "recursive" .switch]

end Verb

end Intake.CommandLine
