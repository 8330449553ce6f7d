import Intake.Text.Hex

/-!
# Percent encoding

Bytes that may not stand in a part of a URL are written as a percent sign and two
hexadecimal digits. Which ones these are depends on the part; no byte above 0x7E stands
for itself in any of them.
-/

namespace Intake.Http.Percent

def hexDigit (n : Nat) : Char := (Nat.digitChar n).toUpper

def escape (b : UInt8) : List Char := ['%', hexDigit (b.toNat / 16), hexDigit (b.toNat % 16)]

def encodeByte (plain : Char → Bool) (b : UInt8) : List Char :=
  let c := Char.ofNat b.toNat
  if 0x20 < b.toNat && b.toNat < 0x7F && plain c then [c] else escape b

def encodeChar (plain : Char → Bool) (c : Char) : List Char :=
  (String.ofList [c]).toUTF8.toList.flatMap (encodeByte plain)

def encode (plain : Char → Bool) (cs : List Char) : List Char := cs.flatMap (encodeChar plain)

/-- The bytes that a text with percent signs stands for. A sign without two digits stands for
itself. -/
def decode : List Char → List UInt8
  | [] => []
  | '%' :: a :: b :: rest =>
    match Text.hexValue a, Text.hexValue b with
    | some m, some n => UInt8.ofNat (m * 16 + n) :: decode rest
    | _, _ => 0x25 :: decode (a :: b :: rest)
  | c :: rest => (String.ofList [c]).toUTF8.toList ++ decode rest
termination_by cs => cs.length

def inPath (c : Char) : Bool := !"\"#<>?`\x7b\x7d".toList.contains c

def inQuery (c : Char) : Bool := !"\"#<>'".toList.contains c

def inFragment (c : Char) : Bool := !"\"<>`".toList.contains c

end Intake.Http.Percent
