import Intake.Time.Formats

/-!
# Windows of time

The times of the first and the last event in some content. The window of a list of time
stamps is the least one that contains them all; it is empty for the empty list.
-/

namespace Intake.Time

/-- When content was made and when it was changed, as far as known. -/
structure Window where
  createdAt : Option Instant
  modifiedAt : Option Instant
  deriving DecidableEq

namespace Window

def empty : Window := ⟨none, none⟩

def isEmpty (w : Window) : Bool := w.createdAt.isNone

def single (t : Instant) : Window := ⟨some t, some t⟩

/-- The least window that also contains `t`. -/
def add (w : Window) (t : Instant) : Window :=
  match w.createdAt, w.modifiedAt with
  | some low, some high => ⟨some (low.earlier t), some (high.later t)⟩
  | _, _ => single t

def hull (ts : List Instant) : Window := ts.foldl add empty

/-- Reads all stamps; the first that is no time is the error, without its outer blanks. -/
def readStamps : List String → Except String (List Instant)
  | [] => .ok []
  | s :: rest =>
    match readStamp s with
    | some t => (readStamps rest).map (t :: ·)
    | none => .error (Text.trim s)

def ofStamps (stamps : List String) : Except String Window := (readStamps stamps).map hull

end Window

end Intake.Time
