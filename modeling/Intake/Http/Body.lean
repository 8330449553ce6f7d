import Intake.Http.Client
import Intake.Json.Decode
import Intake.Json.Reader

/-!
# Bodies of answers

What a body stands for. A body that broke off stands for nothing, and one that is to be
JSON has to hold one value of the expected form.
-/

namespace Intake.Http.Reply

def bytes (r : Reply) : Except Failure ByteArray :=
  match r.body with
  | some bytes => .ok bytes
  | none => .error .unreadableBody

/-- The value that the body holds, of which no more than the outline is looked at. -/
def decode {α : Type} (outline : Json.Outline) (decoder : Json.Decoder α) (r : Reply) :
    Except Failure α :=
  match r.body.bind (Json.readBytes outline) with
  | none => .error .unreadableBody
  | some v => (decoder v).mapError fun _ => .unreadableBody

end Intake.Http.Reply
