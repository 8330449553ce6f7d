import Intake.Cleaning.Pipeline
import Intake.Element.Core

/-!
# Paragraphs and bodies

A paragraph is a block of text of some kind. A body is a list of paragraphs in the order
of the document, with repetitions.
-/

namespace Intake.Element

structure Paragraph where
  kind : TextKind
  core : Core
  text : String
  deriving DecidableEq, Repr

namespace Paragraph

def identify (p : Paragraph) (index : Nat) : Paragraph :=
  { p with core := p.core.identify p.text index }

/-- Whether kind and text are the same. -/
def same (p q : Paragraph) : Bool := p.kind == q.kind && p.text == q.text

def clean (cleaners : List Cleaning.Cleaner) (p : Paragraph) : Except Fault Paragraph :=
  (Cleaning.runOne cleaners ⟨"text", p.text⟩).map fun text => { p with text := text }

def toJson (p : Paragraph) : Json :=
  .object (("type", .string p.kind.category.name) :: p.core.entries ++ [("text", .string p.text)])

open Json.Decode in
def fields : List Field := [.defaulted "type" (oneOf TextKind.table), .required "text" string]

open Json.Decode in
def decode : Json.Decoder Paragraph := fun v => do
  let entries ← Core.entriesBeside "Text" fields v
  let kind ← fieldD entries "type" (oneOf TextKind.table) .text
  let core ← Core.ofEntries entries
  let text ← field entries "text" string
  .ok ⟨kind, core, text⟩

def ofJson (fresh : Id) (v : Json) : Except Fault Paragraph := do
  let v ← Core.withId fresh v
  (decode v).mapError .mismatch

end Paragraph

def numberFrom (index : Nat) : List Paragraph → List Paragraph
  | [] => []
  | p :: rest => p.identify index :: numberFrom (index + 1) rest

def number (ps : List Paragraph) : List Paragraph := numberFrom 0 ps

structure Body where
  paragraphs : List Paragraph
  deriving DecidableEq, Repr

namespace Body

def same (b c : Body) : Bool :=
  b.paragraphs.length == c.paragraphs.length &&
    (b.paragraphs.zip c.paragraphs).all fun pq => pq.1.same pq.2

def display (b : Body) : String := "\n\n".intercalate (b.paragraphs.map (·.text))

/-- Cleans all paragraphs, or none if one of them fails. -/
def clean (cleaners : List Cleaning.Cleaner) (b : Body) : Except Fault Body :=
  (b.paragraphs.mapM (Paragraph.clean cleaners)).map Body.mk

def toJson (b : Body) : Json := .object [("elements", .array (b.paragraphs.map (·.toJson)))]

open Json.Decode in
def shape : Shape where
  name := "BodyText"
  fields := [.required "elements" (list Paragraph.decode)]

open Json.Decode in
def decode : Json.Decoder Body := fun v => do
  let entries ← entriesOf shape v
  (field entries "elements" (list Paragraph.decode)).map Body.mk

end Body

end Intake.Element
