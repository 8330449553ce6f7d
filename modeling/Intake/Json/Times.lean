import Intake.Json.Decode
import Intake.Time.Window

/-!
# Times in JSON

An instant is written as its RFC 3339 text, a window as a record of two bounds, each of
which may be `null`.
-/

namespace Intake

/-- An optional value; `null` stands for none. -/
def Json.ofOption {α : Type} (encode : α → Json) : Option α → Json
  | some a => encode a
  | none => .null

def Json.ofNat (n : Nat) : Json := .number (.integer n)

namespace Time

def Instant.toJson (t : Instant) : Json := .string t.text

namespace Window

def toJson (w : Window) : Json :=
  .object [("created_at", Json.ofOption Instant.toJson w.createdAt),
    ("modified_at", Json.ofOption Instant.toJson w.modifiedAt)]

def shape : Json.Decode.Shape where
  name := "FileMeta"
  fields :=
    [.nullable "created_at" Json.Decode.instant, .nullable "modified_at" Json.Decode.instant]

def decode : Json.Decoder Window := fun v => do
  let entries ← Json.Decode.entriesOf shape v
  let createdAt ←
    Json.Decode.fieldD entries "created_at" (Json.Decode.optional Json.Decode.instant) none
  let modifiedAt ←
    Json.Decode.fieldD entries "modified_at" (Json.Decode.optional Json.Decode.instant) none
  .ok ⟨createdAt, modifiedAt⟩

end Window

end Time

end Intake
