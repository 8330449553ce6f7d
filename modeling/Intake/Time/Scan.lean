import Intake.Text.Blank
import Intake.Text.Decimal

/-!
# Scanning parts of a date

Each scanner takes the characters that are left and returns what it read together with
the rest. Widths count bytes of the UTF-8 form, which differ from characters only
in front of a character that no date can contain.
-/

namespace Intake.Time

open Intake.Text

inductive TimeError where
  | outOfRange
  | impossible
  | invalid
  | tooShort
  | tooLong
  deriving DecidableEq, Repr

def TimeError.message : TimeError → String
  | .outOfRange => "input is out of range"
  | .impossible => "no possible date and time matching input"
  | .invalid => "input contains invalid characters"
  | .tooShort => "premature end of input"
  | .tooLong => "trailing input"

namespace Scan

def byteLength (cs : List Char) : Nat := (String.ofList cs).utf8ByteSize

/-- The digits in front, at most `limit` of them where there is a limit. -/
def leadingDigits (limit : Option Nat) (cs : List Char) : List Char :=
  let ds := cs.takeWhile Char.isDigit
  match limit with
  | some k => ds.take k
  | none => ds

def number (least : Nat) (limit : Option Nat) (cs : List Char) :
    Except TimeError (Nat × List Char) :=
  if byteLength cs < least then .error .tooShort
  else
    let ds := leadingDigits limit cs
    if ds.length < least then .error .invalid
    else .ok (Decimal.value ds, cs.drop ds.length)

def bounded (low high : Nat) (least : Nat) (limit : Option Nat) (cs : List Char) :
    Except TimeError (Nat × List Char) := do
  let (n, rest) ← number least limit cs
  if low ≤ n && n ≤ high then .ok (n, rest) else .error .outOfRange

def literal (c : Char) : List Char → Except TimeError (List Char)
  | [] => .error .tooShort
  | d :: rest => if d = c then .ok rest else .error .invalid

def skipBlanks (cs : List Char) : List Char := cs.dropWhile isBlank

/-- A year with a sign and any number of digits, or with up to four digits. -/
def signedYear (cs : List Char) : Except TimeError (Int × List Char) :=
  match cs with
  | '-' :: rest => (number 1 none rest).map fun (n, rest) => (-(n : Int), rest)
  | '+' :: rest => (number 1 none rest).map fun (n, rest) => ((n : Int), rest)
  | _ => (number 1 (some 4) cs).map fun (n, rest) => ((n : Int), rest)

/-- Digits after the point: nine are kept, the others are skipped. -/
def fraction (cs : List Char) : Except TimeError (Nat × List Char) := do
  let (_, _) ← number 1 (some 9) cs
  let ds := leadingDigits (some 9) cs
  let rest := (cs.drop ds.length).dropWhile Char.isDigit
  .ok (Decimal.value (ds.rightpad 9 '0'), rest)

def optionalFraction (cs : List Char) : Except TimeError (Nat × List Char) :=
  match cs with
  | '.' :: rest => fraction rest
  | _ => .ok (0, cs)

inductive OffsetMark where
  | colon
  | loose

/-- The rules that the notations of an offset differ in. -/
structure OffsetStyle where
  mark : OffsetMark
  zulu : Bool

def twoDigits (cs : List Char) : Except TimeError Nat :=
  if byteLength cs < 2 then .error .tooShort
  else match cs with
    | a :: b :: _ =>
      if a.isDigit && b.isDigit then .ok (Decimal.value [a, b]) else .error .invalid
    | _ => .error .invalid

def offsetMark : OffsetMark → List Char → Except TimeError (List Char)
  | .colon, cs => literal ':' cs
  | .loose, cs => .ok (cs.dropWhile fun c => c == ':' || isBlank c)

def offsetMinutes (cs : List Char) : Except TimeError (Nat × List Char) := do
  let minutes ← twoDigits cs
  if minutes < 60 then .ok (minutes, cs.drop 2) else .error .outOfRange

/-- An offset from UTC in seconds; the minus sign may be a hyphen or U+2212. -/
def offset (style : OffsetStyle) (cs : List Char) : Except TimeError (Int × List Char) :=
  match cs with
  | [] => .error .tooShort
  | c :: rest =>
    if style.zulu && (c == 'Z' || c == 'z') then .ok (0, rest)
    else if c == '+' || c == '-' || c == '\u2212' then do
      let hours ← twoDigits rest
      let rest ← offsetMark style.mark (rest.drop 2)
      let (minutes, rest) ← offsetMinutes rest
      let seconds : Int := ((hours * 3600 + minutes * 60 : Nat) : Int)
      .ok (if c == '+' then seconds else -seconds, rest)
    else .error .invalid

end Scan

end Intake.Time
