import Intake.CommandLine.Options

/-!
# Arguments

The arguments of a program, read from left to right. Options are written `--name value`,
`--name=value` or, for switches, `--name` and `-x`, where several letters may share one
dash. No option may be given twice before the command, nor twice after it. Reading stops
where help is asked for and at the first fault.
-/

namespace Intake.CommandLine

inductive Stop where
  | asked
  | misused
  deriving DecidableEq, Repr

abbrev Given := List (String × String)

/-- What is understood before the command, or after it. -/
structure Place where
  options : List Spec
  tellsVersion : Bool
  takesVerb : Bool

def Place.program : Place := ⟨commonOptions, true, true⟩

def Place.after (v : Verb) : Place := ⟨v.options ++ commonOptions, false, false⟩

/-- What was read so far. The last option is kept apart until the next one begins: its value may
still be missing, and whether the value is fit is not looked at before. -/
structure Progress where
  given : Given
  last : Option (Spec × Option String)

namespace Progress

def start : Progress := ⟨[], none⟩

def accept (given : Given) (s : Spec) (value : String) : Except Stop Given :=
  if (given.lookup s.name).isSome || !s.kind.accepts value then .error .misused
  else .ok (given ++ [(s.name, value)])

def settle (p : Progress) : Except Stop Given :=
  match p.last with
  | none => .ok p.given
  | some (_, none) => .error .misused
  | some (s, some value) => accept p.given s value

def turnOn (p : Progress) (s : Spec) : Except Stop Progress := do
  let given ← p.settle
  .ok ⟨← accept given s "true", none⟩

def attach (p : Progress) (s : Spec) (value : String) : Except Stop Progress := do
  let given ← p.settle
  .ok ⟨← accept given s value, none⟩

def await (p : Progress) (s : Spec) : Except Stop Progress := do
  .ok ⟨← p.settle, some (s, none)⟩

/-- Help or the version, which is given if nothing before was wrong. -/
def ask {α : Type} (p : Progress) : Except Stop α := do
  let _ ← p.settle
  .error .asked

end Progress

namespace Place

def long (place : Place) (p : Progress) (arg : List Char) : Except Stop Progress :=
  let name := String.ofList (arg.takeWhile (· ≠ '='))
  let value := match arg.dropWhile (· ≠ '=') with
    | _ :: value => some (String.ofList value)
    | [] => none
  match place.options.find? fun s => s.name == name, value with
  | some s, some value => if s.kind = .switch then .error .misused else p.attach s value
  | some s, none => if s.kind = .switch then p.turnOn s else p.await s
  | none, some _ => .error .misused
  | none, none =>
    if name = "help" ∨ (name = "version" ∧ place.tellsVersion) then p.ask else .error .misused

def short (place : Place) (p : Progress) : List Char → Except Stop Progress
  | [] => .ok p
  | c :: rest =>
    match place.options.find? fun s => s.letter == some c with
    | some s => do place.short (← p.turnOn s) rest
    | none => if c = 'h' ∨ (c = 'V' ∧ place.tellsVersion) then p.ask else .error .misused

/-- Where reading at one place ended: at the end of the arguments, or at a command. -/
inductive End where
  | done (p : Progress)
  | verb (p : Progress) (name : String) (rest : List String)

def isOption (arg : List Char) : Bool :=
  match arg with
  | '-' :: _ :: _ => true
  | _ => false

def isVerb (place : Place) (name : String) : Bool :=
  place.takesVerb && (name == "help" || (Verb.ofName? name).isSome)

/-- Reads the arguments at one place. After two dashes nothing may follow. -/
def read (place : Place) : Progress → List String → Except Stop End
  | p, [] => .ok (.done p)
  | p, arg :: rest =>
    let cs := arg.toList
    match p.last, cs with
    | some (s, none), _ =>
      if isOption cs then .error .misused else place.read ⟨p.given, some (s, some arg)⟩ rest
    | _, ['-', '-'] => if rest.isEmpty then .ok (.done p) else .error .misused
    | _, '-' :: '-' :: long => do place.read (← place.long p long) rest
    | _, '-' :: c :: letters => do place.read (← place.short p (c :: letters)) rest
    | _, _ => if place.isVerb arg then .ok (.verb p arg rest) else .error .misused

end Place

end Intake.CommandLine
