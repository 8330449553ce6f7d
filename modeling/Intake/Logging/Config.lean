import Intake.Environment
import Intake.Files.FileError
import Intake.Files.Path
import Intake.Json.Times
import Intake.Text.Case

/-!
# Logging

How much is logged, where to and in which form. A setting is given by a word in any case;
variables of the environment override what a program asks for.
-/

namespace Intake.Logging

inductive Level where
  | trace
  | debug
  | info
  | warn
  | error
  deriving DecidableEq, Repr

inductive Target where
  | console
  | file
  | both
  deriving DecidableEq, Repr

inductive Style where
  | text
  | json
  deriving DecidableEq, Repr

inductive Problem where
  | badLevel (word : String)
  | badTarget (word : String)
  | badStyle (word : String)
  | badDirective
  | noDirectory (error : Files.FileError)
  deriving DecidableEq, Repr

def Problem.message : Problem → String
  | .badLevel word => "Invalid log level: " ++ word
  | .badTarget word => "Invalid log output: " ++ word
  | .badStyle word => "Invalid log format: " ++ word
  | .badDirective => "Failed to parse filter directive"
  | .noDirectory _ => "Failed to create log directory"

/-! ## Words -/

namespace Level

def name : Level → String
  | .trace => "trace"
  | .debug => "debug"
  | .info => "info"
  | .warn => "warn"
  | .error => "error"

def label : Level → String
  | .trace => "TRACE"
  | .debug => "DEBUG"
  | .info => "INFO"
  | .warn => "WARN"
  | .error => "ERROR"

def table : List (String × Level) := [("trace", .trace), ("debug", .debug), ("info", .info),
  ("warn", .warn), ("error", .error)]

def ofWord (word : String) : Except Problem Level :=
  match (("warning", .warn) :: table).lookup (Text.lower word) with
  | some level => .ok level
  | none => .error (.badLevel word)

end Level

namespace Target

def name : Target → String
  | .console => "console"
  | .file => "file"
  | .both => "both"

def table : List (String × Target) := [("console", .console), ("file", .file), ("both", .both)]

def ofWord (word : String) : Except Problem Target :=
  match (("stdout", .console) :: ("all", .both) :: table).lookup (Text.lower word) with
  | some target => .ok target
  | none => .error (.badTarget word)

def usesFile : Target → Bool
  | .console => false
  | .file | .both => true

end Target

namespace Style

def name : Style → String
  | .text => "text"
  | .json => "json"

def table : List (String × Style) := [("text", .text), ("json", .json)]

def ofWord (word : String) : Except Problem Style :=
  match (("pretty", .text) :: table).lookup (Text.lower word) with
  | some style => .ok style
  | none => .error (.badStyle word)

end Style

/-! ## Configurations -/

structure Config where
  level : Level
  target : Target
  style : Style
  directory : Files.Path
  stem : String
  /-- Directives, with commas between them. -/
  filter : Option String
  showsPlace : Bool
  deriving DecidableEq

namespace Config

def default : Config := ⟨.info, .console, .text, ⟨"./logs"⟩, "docflow", none, false⟩

def override {α : Type} (e : Environment) (name : String)
    (read : String → Except Problem α) (setting : α) : Except Problem α :=
  match e.get? name with
  | some word => read word
  | none => .ok setting

def extend (c : Config) (e : Environment) : Except Problem Config := do
  let level ← override e "DOCFLOW_LOG_LEVEL" Level.ofWord c.level
  let target ← override e "DOCFLOW_LOG_OUTPUT" Target.ofWord c.target
  let style ← override e "DOCFLOW_LOG_FORMAT" Style.ofWord c.style
  .ok { c with
    level := level
    target := target
    style := style
    directory := ((e.get? "DOCFLOW_LOG_DIR").map Files.Path.mk).getD c.directory
    filter := (e.get? "DOCFLOW_LOG_FILTER").or c.filter }

/-! ## JSON -/

def toJson (c : Config) : Json :=
  .object [("level", .string c.level.name), ("output", .string c.target.name),
    ("format", .string c.style.name), ("log_dir", .string c.directory.text),
    ("log_file_prefix", .string c.stem), ("filter_directives", Json.ofOption .string c.filter),
    ("include_location", .bool c.showsPlace)]

open Json.Decode in
def shape : Shape where
  name := "LogConfig"
  fields := [.required "level" (oneOf Level.table), .required "output" (oneOf Target.table),
    .required "format" (oneOf Style.table), .required "log_dir" path,
    .required "log_file_prefix" string, .nullable "filter_directives" string,
    .required "include_location" boolean]

open Json.Decode in
def decode : Json.Decoder Config := fun v => do
  let entries ← entriesOf shape v
  let level ← field entries "level" (oneOf Level.table)
  let target ← field entries "output" (oneOf Target.table)
  let style ← field entries "format" (oneOf Style.table)
  let directory ← field entries "log_dir" path
  let stem ← field entries "log_file_prefix" string
  let filter ← fieldD entries "filter_directives" (optional string) none
  let showsPlace ← field entries "include_location" boolean
  .ok ⟨level, target, style, ⟨directory⟩, stem, filter, showsPlace⟩

end Config

end Intake.Logging
