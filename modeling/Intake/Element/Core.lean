import Intake.Element.Category
import Intake.Element.Identity

/-!
# What all elements have

Every element carries an identifier and a note of where it comes from. In JSON both are
fields of the element itself, beside its own fields.
-/

namespace Intake.Element

/-- Where an element comes from, as far as known. -/
structure Origin where
  page : Option Nat
  filename : Option String
  locator : Option String
  deriving DecidableEq, Repr

namespace Origin

def unknown : Origin := ⟨none, none, none⟩

def entry {α : Type} (name : String) (encode : α → Json) : Option α → List (String × Json)
  | some a => [(name, encode a)]
  | none => []

def toJson (o : Origin) : Json :=
  .object (entry "page_number" (fun n => .number (.integer (n : Nat))) o.page ++
    entry "filename" .string o.filename ++ entry "source_locator" .string o.locator)

open Json.Decode in
def fields : List Field :=
  [.defaulted "page_number" (optional nat32), .defaulted "filename" (optional string),
    .defaulted "source_locator" (optional string)]

def shape : Json.Decode.Shape where
  name := "ElementMetadata"
  fields := fields

/-- The shape where the origin is a field of an element. -/
def innerShape : Json.Decode.Shape where
  name := "ElementMetadata"
  fields := fields
  tooMany count := String.ofList (Text.Decimal.digits count) ++ " elements in sequence"

open Json.Decode in
def decodeAs (shape : Shape) : Json.Decoder Origin := fun v => do
  let entries ← entriesOf shape v
  let page ← fieldD entries "page_number" (optional nat32) none
  let filename ← fieldD entries "filename" (optional string) none
  let locator ← fieldD entries "source_locator" (optional string) none
  .ok ⟨page, filename, locator⟩

def decode : Json.Decoder Origin := decodeAs shape

end Origin

structure Core where
  id : Id
  origin : Origin
  deriving DecidableEq, Repr

namespace Core

def identify (c : Core) (text : String) (index : Nat) : Core :=
  { c with id := .fingerprint text c.origin.page index }

def entries (c : Core) : List (String × Json) :=
  [("element_id", .string c.id.text), ("metadata", c.origin.toJson)]

open Json.Decode in
def fields : List Field :=
  [.required "element_id" string, .defaulted "metadata" (Origin.decodeAs Origin.innerShape)]

open Json.Decode in
def ofEntries (entries : List (String × Json)) : Except Json.Mismatch Core := do
  let id ← field entries "element_id" string
  let origin ← fieldD entries "metadata" (Origin.decodeAs Origin.innerShape) .unknown
  .ok ⟨⟨id⟩, origin⟩

/-- The entries of an element whose own fields are `own`. Those are checked before the
identifier and the origin. -/
def entriesBeside (name : String) (own : List Json.Decode.Field) :
    Json.Decoder (List (String × Json))
  | .object entries => do
    Json.Decode.checkObject own entries
    Json.Decode.checkObject fields entries
    .ok entries
  | v => .error (.wrongType v ("struct " ++ name))

/-- The object with a sound identifier: its own, or `fresh` if it has none. -/
def withId (fresh : Id) (v : Json) : Except Fault Json :=
  match v with
  | .object entries => do
    let id ← Id.ofJson (entries.lookup "element_id")
    .ok (.object (Json.setEntry "element_id" (.string (id.getD fresh).text) entries))
  | _ => .error (.unreadable (.notAnObject v.kind))

end Core

end Intake.Element
