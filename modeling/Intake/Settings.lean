import Intake.Environment
import Intake.Fault
import Intake.Files.Path
import Intake.Json.Times
import Intake.Text.Case
import Intake.Text.Described

/-!
# Settings of a run

Which directories are used, what is kept and how many documents are worked on at once.
Settings come from the environment, from JSON or from a caller, and are fit for a run
only if both directories are named and the number of documents is not zero.
-/

namespace Intake

structure Settings where
  downloadDir : Files.Path
  outputDir : Files.Path
  /-- Whether staged files are kept. -/
  retain : Bool
  /-- Whether documents that have a result already are worked on again. -/
  reprocess : Bool
  concurrency : Nat
  verbose : Bool
  deriving DecidableEq

namespace Settings

def defaultConcurrency : Nat := 2

def within (downloadDir outputDir : Files.Path) : Settings :=
  ⟨downloadDir, outputDir, false, false, defaultConcurrency, false⟩

def validate (s : Settings) : Except Fault Unit :=
  if s.concurrency = 0 then .error (.misconfigured .noConcurrency)
  else if s.downloadDir.text.isEmpty then .error (.misconfigured .noDownloadDirectory)
  else if s.outputDir.text.isEmpty then .error (.misconfigured .noOutputDirectory)
  else .ok ()

/-! ## From the environment -/

/-- The directory for files that can be made again. -/
def cacheDir? (e : Environment) : Option Files.Path :=
  match (e.get? "XDG_CACHE_HOME").filter fun dir => dir.toList.head? == some '/' with
  | some dir => some ⟨dir⟩
  | none => ((e.getFilled? "HOME").or e.accountHome).map fun home => Files.Path.join ⟨home⟩ ".cache"

def defaultDownloadDir (e : Environment) : Files.Path :=
  match cacheDir? e with
  | some dir => (dir.join "docflow").join "downloads"
  | none => ⟨".docflow-downloads"⟩

def readFlag (name value : String) : Except Fault Bool :=
  let word := Text.lower (Text.trim value)
  if word ∈ ["1", "true", "yes", "on"] then .ok true
  else if word ∈ ["0", "false", "no", "off", ""] then .ok false
  else .error (.misconfigured (.notABoolean name value))

def readCount (name value : String) : Except Fault Nat :=
  match Text.Decimal.readBelow 18446744073709551616 value.toList with
  | some n => .ok n
  | none => .error (.misconfigured (.notANumber name value))

def fromVariable {α : Type} (e : Environment) (name : String)
    (read : String → String → Except Fault α) (default : α) : Except Fault α :=
  match e.get? name with
  | some value => read name value
  | none => .ok default

def ofEnvironment (e : Environment) : Except Fault Settings := do
  let downloadDir := ((e.get? "DOCFLOW_DOWNLOAD_DIR").map Files.Path.mk).getD (defaultDownloadDir e)
  let outputDir := ((e.get? "DOCFLOW_OUTPUT_DIR").map Files.Path.mk).getD ⟨"docflow-output"⟩
  let retain ← fromVariable e "DOCFLOW_PRESERVE_DOWNLOADS" readFlag false
  let reprocess ← fromVariable e "DOCFLOW_REPROCESS" readFlag false
  let concurrency ← fromVariable e "DOCFLOW_CONCURRENCY" readCount defaultConcurrency
  let settings : Settings := ⟨downloadDir, outputDir, retain, reprocess, concurrency, false⟩
  settings.validate
  .ok settings

/-! ## JSON -/

def toJson (s : Settings) : Json :=
  .object [("download_dir", .string s.downloadDir.text), ("output_dir", .string s.outputDir.text),
    ("retain_artifacts", .bool s.retain), ("reprocess", .bool s.reprocess),
    ("concurrency", Json.ofNat s.concurrency), ("verbose", .bool s.verbose)]

open Json.Decode in
def shape : Shape where
  name := "StandardConnectorConfig"
  fields := [.required "download_dir" path, .required "output_dir" path,
    .defaulted "retain_artifacts" boolean, .defaulted "reprocess" boolean,
    .defaulted "concurrency" nat64, .defaulted "verbose" boolean]

open Json.Decode in
def decode : Json.Decoder Settings := fun v => do
  let entries ← entriesOf shape v
  let downloadDir ← field entries "download_dir" path
  let outputDir ← field entries "output_dir" path
  let retain ← fieldD entries "retain_artifacts" boolean false
  let reprocess ← fieldD entries "reprocess" boolean false
  let concurrency ← fieldD entries "concurrency" nat64 defaultConcurrency
  let verbose ← fieldD entries "verbose" boolean false
  .ok ⟨⟨downloadDir⟩, ⟨outputDir⟩, retain, reprocess, concurrency, verbose⟩

/-! ## Descriptions -/

def describe (s : Settings) : String :=
  Text.describeRecord "StandardConnectorConfig"
    [("download_dir", Text.quote s.downloadDir.text), ("output_dir", Text.quote s.outputDir.text),
      ("retain_artifacts", Text.describeBool s.retain),
      ("reprocess", Text.describeBool s.reprocess),
      ("concurrency", String.ofList (Text.Decimal.digits s.concurrency)),
      ("verbose", Text.describeBool s.verbose)]

end Settings

end Intake
