import Intake.Element.Name
import Intake.Element.Paragraph

/-!
# Emails

An email is a list of sections: names from its head, single paragraphs and bodies. The
positions are counted through the whole email, paragraphs of a body included, so that no
two elements of an email stand at the same position.
-/

namespace Intake.Element

inductive Section where
  | name (n : Name)
  | text (p : Paragraph)
  | body (b : Body)
  deriving DecidableEq

namespace Section

def category : Section → Category
  | .name n => n.kind.category
  | .text p => p.kind.category
  | .body _ => .bodyText

def display : Section → String
  | .name n => n.display
  | .text p => p.text
  | .body b => b.display

def same : Section → Section → Bool
  | .name m, .name n => m.same n
  | .text p, .text q => p.same q
  | .body b, .body c => b.same c
  | _, _ => false

/-- Cleans the section as a whole: it is unchanged if any part of it fails. -/
def clean (cleaners : List Cleaning.Cleaner) : Section → Except Fault Section
  | .name n => (n.clean cleaners).map .name
  | .text p => (p.clean cleaners).map .text
  | .body b => (b.clean cleaners).map .body

def toJson : Section → Json
  | .name n => n.toJson
  | .text p => p.toJson
  | .body b => b.toJson

def size : Section → Nat
  | .name _ | .text _ => 1
  | .body b => b.paragraphs.length

def numberFrom (index : Nat) : Section → Section
  | .name n => .name (n.identify index)
  | .text p => .text (p.identify index)
  | .body b => .body ⟨Element.numberFrom index b.paragraphs⟩

end Section

def numberSections (index : Nat) : List Section → List Section
  | [] => []
  | s :: rest => s.numberFrom index :: numberSections (index + s.size) rest

/-- Gives every element of an email the identifier of its position. -/
def numberEmail (sections : List Section) : List Section := numberSections 0 sections

end Intake.Element
