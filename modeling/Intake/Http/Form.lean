import Intake.Http.Percent
import Intake.Text.Split

/-!
# Form encoding

A query of names with values: `name=value` pairs with `&` between them, in which a blank
is written as a plus sign and all but letters, digits and `*-._` is percent-encoded. What
was written is read back as it was.
-/

namespace Intake.Http.Form

def isPlain (c : Char) : Bool := c.isAlphanum || "*-._".toList.contains c

def encodeChar (c : Char) : List Char :=
  if c = ' ' then ['+'] else Percent.encodeChar isPlain c

def encode (s : String) : List Char := s.toList.flatMap encodeChar

def decode (cs : List Char) : String :=
  let blanks := cs.map fun c => if c = '+' then ' ' else c
  (String.fromUTF8? ⟨(Percent.decode blanks).toArray⟩).getD ""

def writePair (p : String × String) : List Char := encode p.1 ++ '=' :: encode p.2

def write (pairs : List (String × String)) : List Char := ['&'].intercalate (pairs.map writePair)

/-- Reads one pair. A piece without `=` is a name with an empty value. -/
def readPair (piece : List Char) : String × String :=
  let name := piece.takeWhile (· ≠ '=')
  (decode name, decode ((piece.drop name.length).drop 1))

def read (cs : List Char) : List (String × String) :=
  ((Text.splitAt '&' cs).filter (!·.isEmpty)).map readPair

end Intake.Http.Form
