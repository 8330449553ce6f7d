import Intake.Cleaning.Pipeline
import Intake.Element.Core
import Intake.Json.Times

/-!
# Names

A pair of a name and a text, such as a line in the head of a letter, which may carry a
date.
-/

namespace Intake.Element

structure Name where
  kind : NameKind
  core : Core
  name : String
  text : String
  date : Option Time.Instant
  deriving DecidableEq

namespace Name

def identify (n : Name) (index : Nat) : Name :=
  { n with core := n.core.identify n.text index }

/-- Whether two dates do not contradict each other; a missing one contradicts none. -/
def datesAgree : Option Time.Instant → Option Time.Instant → Bool
  | some s, some t => s == t
  | _, _ => true

/-- Whether name and text are the same and the dates agree. This is not transitive. -/
def same (m n : Name) : Bool :=
  m.name == n.name && m.text == n.text && datesAgree m.date n.date

def display (n : Name) : String := n.name ++ ": " ++ n.text

def clean (cleaners : List Cleaning.Cleaner) (n : Name) : Except Fault Name :=
  (Cleaning.run cleaners [⟨"text", n.text⟩, ⟨"name", n.name⟩]).map fun fields =>
    match fields with
    | [text, name] => { n with text := text.value, name := name.value }
    | _ => n

def toJson (n : Name) : Json :=
  .object (("type", .string n.kind.category.name) :: n.core.entries ++
    [("name", .string n.name), ("text", .string n.text)] ++
    Origin.entry "datestamp" Time.Instant.toJson n.date)

open Json.Decode in
def fields : List Field :=
  [.defaulted "type" (oneOf NameKind.table), .required "name" string, .required "text" string,
    .defaulted "datestamp" (optional instant)]

open Json.Decode in
def decode : Json.Decoder Name := fun v => do
  let entries ← Core.entriesBeside "Name" fields v
  let kind ← fieldD entries "type" (oneOf NameKind.table) .uncategorized
  let core ← Core.ofEntries entries
  let name ← field entries "name" string
  let text ← field entries "text" string
  let date ← fieldD entries "datestamp" (optional instant) none
  .ok ⟨kind, core, name, text, date⟩

/-- The name in a JSON object; one without identifier gets a fresh one. -/
def ofJson (fresh : Id) (v : Json) : Except Fault Name := do
  let v ← Core.withId fresh v
  (decode v).mapError .mismatch

end Name

end Intake.Element
