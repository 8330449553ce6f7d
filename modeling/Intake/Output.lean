import Intake.Element.Paragraph
import Intake.Files.Publish
import Intake.Json.Printer
import Intake.Json.Times

/-!
# Results

The result for one document: its elements, where it comes from and when it was worked
on. It is written as indented JSON through a temporary file.
-/

namespace Intake

open Element Files

structure Output where
  locator : String
  filename : String
  window : Time.Window
  processedAt : Time.Instant
  elements : List Paragraph
  deriving DecidableEq

namespace Output

def toJson (o : Output) : Json :=
  .object [("source_locator", .string o.locator), ("filename", .string o.filename),
    ("metadata", o.window.toJson), ("processed_at", o.processedAt.toJson),
    ("elements", .array (o.elements.map (·.toJson)))]

open Json.Decode in
def shape : Shape where
  name := "ProcessedDocument"
  fields := [.required "source_locator" string, .required "filename" string,
    .required "metadata" Time.Window.decode, .required "processed_at" instant,
    .required "elements" (list Paragraph.decode)]

open Json.Decode in
def decode : Json.Decoder Output := fun v => do
  let entries ← entriesOf shape v
  let locator ← field entries "source_locator" string
  let filename ← field entries "filename" string
  let window ← field entries "metadata" Time.Window.decode
  let processedAt ← field entries "processed_at" instant
  let elements ← field entries "elements" (list Paragraph.decode)
  .ok ⟨locator, filename, window, processedAt, elements⟩

/-- Whether two results are the same, where elements are compared by kind and text. -/
def same (a b : Output) : Bool :=
  a.locator == b.locator && a.filename == b.filename && a.window == b.window &&
    a.processedAt == b.processedAt && Body.same ⟨a.elements⟩ ⟨b.elements⟩

def bytes (o : Output) : ByteArray := o.toJson.pretty.toUTF8

/-- Writes the result to a path, complete or not at all: a fault that strikes before all of
it is written leaves what was there. -/
def write (fs : FileSystem) (p : Path) (o : Output) (struck : Option Fault := none) :
    Except Fault Unit × FileSystem :=
  fs.publish Fault.ofFile ((p.parent?).getD ⟨"."⟩) p (struck.elim (.ok o.bytes) .error)

end Output

end Intake
