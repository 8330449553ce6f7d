import Intake.CommandLine.Options

/-!
# Usage

A short text on the commands and their options, made of the same tables that the arguments
are read with.
-/

namespace Intake.CommandLine

def Kind.sample : Kind → String
  | .text => " <TEXT>"
  | .path => " <PATH>"
  | .count => " <NUMBER>"
  | .switch => ""

def Spec.usage (s : Spec) : String :=
  let letter := match s.letter with
    | some c => "-" ++ String.ofList [c] ++ ", "
    | none => ""
  let source := match s.envName with
    | some name => "  [env: " ++ name ++ "]"
    | none => ""
  "  " ++ letter ++ "--" ++ s.name ++ s.kind.sample ++ source

def usageOf (heading : String) (options : List Spec) : List String :=
  "" :: heading :: options.map Spec.usage

def usage : String :=
  "\n".intercalate ("Usage: docflow-ingest [OPTIONS] <slack|google-drive>" ::
    (usageOf "Options:" commonOptions ++ usageOf "slack:" Verb.slack.options ++
      usageOf "google-drive:" Verb.drive.options))

end Intake.CommandLine
