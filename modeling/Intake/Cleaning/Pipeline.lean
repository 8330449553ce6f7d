import Intake.Fault

/-!
# Cleaning pipelines

A cleaner makes a JSON value of a text; anything but a text is a fault. A pipeline runs
its cleaners over several fields in lockstep: the first cleaner over all fields, then the
second, and so on. Nothing is kept of a pipeline that fails.
-/

namespace Intake.Cleaning

abbrev Cleaner := String → Json

def ofFunction (f : String → String) : Cleaner := fun s => .string (f s)

structure Field where
  name : String
  value : String
  deriving DecidableEq, Repr

/-- Runs one cleaner, which stands at `position`, over one field. -/
def cleanField (position : Nat) (cleaner : Cleaner) (field : Field) : Except Fault Field :=
  match cleaner field.value with
  | .string s => .ok { field with value := s }
  | v => .error (.unclean field.name position v.kind)

def runFrom (position : Nat) : List Cleaner → List Field → Except Fault (List Field)
  | [], fields => .ok fields
  | cleaner :: rest, fields => do
    let fields ← fields.mapM (cleanField position cleaner)
    runFrom (position + 1) rest fields

def run (cleaners : List Cleaner) (fields : List Field) : Except Fault (List Field) :=
  runFrom 0 cleaners fields

def runOne (cleaners : List Cleaner) (field : Field) : Except Fault String :=
  (run cleaners [field]).map fun fields => (fields.map (·.value)).headD field.value

end Intake.Cleaning
