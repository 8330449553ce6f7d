import Intake.Digest
import Intake.Fault

/-!
# Identifiers of elements

An element has an identifier from outside until its place in a document is settled. Then
the identifier becomes the fingerprint of its text, its page and its position.
-/

namespace Intake.Element

structure Id where
  text : String
  deriving DecidableEq, Repr

namespace Id

def ofText (s : String) : Except Fault Id :=
  if s.isEmpty then .error (.badIdentity .empty) else .ok ⟨s⟩

/-- The identifier in a JSON value; `null` or no value at all means that there is none. -/
def ofJson : Option Json → Except Fault (Option Id)
  | none | some .null => .ok none
  | some (.string s) => (ofText s).map some
  | some v => .error (.badIdentity (.notText v.kind))

def pageText : Option Nat → List Char
  | some n => Text.Decimal.digits n
  | none => "None".toList

/-- The text that is hashed: the element's own, its page, its position. -/
def hashed (text : String) (page : Option Nat) (index : Nat) : List Char :=
  text.toList ++ (pageText page ++ Text.Decimal.digits index)

def fingerprint (text : String) (page : Option Nat) (index : Nat) : Id :=
  ⟨Digest.fingerprint (String.ofList (hashed text page index)).toUTF8⟩

end Id

end Intake.Element
