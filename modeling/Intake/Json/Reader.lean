import Intake.Json.Basic
import Intake.Text.Hex

/-!
# Reading JSON

A strict reader: nothing but blanks may follow the value, commas stand between items only,
numbers have no superfluous zeros, and escapes must denote characters. Equal keys are all
kept. Where a part of the text is not looked at only its form counts, and its strings need not be
texts.
-/

namespace Intake.Json

def isSpace (c : Char) : Bool := c == ' ' || c == '\n' || c == '\t' || c == '\r'

def skipSpace (cs : List Char) : List Char := cs.dropWhile isSpace

/-! ## Strings -/

def hex4 (a b c d : Char) : Option Nat := do
  let a ← Text.hexValue a
  let b ← Text.hexValue b
  let c ← Text.hexValue c
  let d ← Text.hexValue d
  some (((a * 16 + b) * 16 + c) * 16 + d)

def shortEscape (c : Char) : Option Char :=
  match c with
  | '"' => some '"'
  | '\\' => some '\\'
  | '/' => some '/'
  | 'b' => some '\x08'
  | 'f' => some '\x0c'
  | 'n' => some '\n'
  | 'r' => some '\r'
  | 't' => some '\t'
  | _ => none

def isHighSurrogate (n : Nat) : Bool := 0xD800 ≤ n && n ≤ 0xDBFF
def isLowSurrogate (n : Nat) : Bool := 0xDC00 ≤ n && n ≤ 0xDFFF

def ofSurrogates (high low : Nat) : Char :=
  Char.ofNat (0x10000 + (high - 0xD800) * 0x400 + (low - 0xDC00))

/-- A character of a string, or one half of a character. -/
inductive Letter where
  | char (c : Char)
  | surrogate (n : Nat)

def Letter.ofNat (n : Nat) : Letter :=
  if isHighSurrogate n || isLowSurrogate n then .surrogate n else .char (.ofNat n)

def stringBody : List Char → Option (List Letter × List Char)
  | [] => none
  | '"' :: rest => some ([], rest)
  | '\\' :: 'u' :: a :: b :: c :: d :: rest =>
    match hex4 a b c d with
    | some n => (stringBody rest).map fun (ls, r) => (.ofNat n :: ls, r)
    | none => none
  | '\\' :: e :: rest =>
    match shortEscape e with
    | some c => (stringBody rest).map fun (ls, r) => (.char c :: ls, r)
    | none => none
  | c :: rest =>
    if c.toNat < 0x20 || c = '\\' then none
    else (stringBody rest).map fun (ls, r) => (.char c :: ls, r)

/-- The characters of letters, if no surrogate stands alone. -/
def joined : List Letter → Option (List Char)
  | [] => some []
  | .char c :: rest => (joined rest).map (c :: ·)
  | .surrogate high :: .surrogate low :: rest =>
    if isHighSurrogate high && isLowSurrogate low then
      (joined rest).map (ofSurrogates high low :: ·)
    else none
  | .surrogate _ :: _ => none

/-- A string that begins with its mark; one that is not looked at is read as the empty one. -/
def stringToken (looked : Bool) : List Char → Option (String × List Char)
  | '"' :: rest => do
    let (ls, r) ← stringBody rest
    if looked then some (String.ofList (← joined ls), r) else some ("", r)
  | _ => none

/-! ## Numbers -/

/-- The digits before the point, without superfluous zeros. -/
def wholeDigits (cs : List Char) : Option (List Char × List Char) :=
  match cs.takeWhile Char.isDigit with
  | [] => none
  | '0' :: _ :: _ => none
  | ds => some (ds, cs.dropWhile Char.isDigit)

def fractionDigits : List Char → Option (List Char × List Char)
  | '.' :: rest =>
    match rest.takeWhile Char.isDigit with
    | [] => none
    | ds => some (ds, rest.dropWhile Char.isDigit)
  | cs => some ([], cs)

def exponentPart : List Char → Option (Option Int × List Char)
  | c :: rest =>
    if c = 'e' ∨ c = 'E' then
      let (negative, rest) := match rest with
        | '-' :: r => (true, r)
        | '+' :: r => (false, r)
        | r => (false, r)
      match rest.takeWhile Char.isDigit with
      | [] => none
      | ds =>
        let n : Int := Text.Decimal.value ds
        some (some (if negative then -n else n), rest.dropWhile Char.isDigit)
    else some (none, c :: rest)
  | [] => some (none, [])

/-- A literal without point and exponent is an integer, if it has 64 bits and is not `-0`. -/
def numberOf (negative : Bool) (whole fraction : List Char) (exponent : Option Int) : Number :=
  let n : Int := Text.Decimal.value whole
  let n := if negative then -n else n
  if fraction.isEmpty && exponent.isNone && Number.fits n && !(negative && n == 0) then .integer n
  else .real negative (Text.Decimal.value (whole ++ fraction))
    (exponent.getD 0 - fraction.length)

def numberToken (cs : List Char) : Option (Number × List Char) := do
  let (negative, cs) := match cs with
    | '-' :: rest => (true, rest)
    | _ => (false, cs)
  let (whole, cs) ← wholeDigits cs
  let (fraction, cs) ← fractionDigits cs
  let (exponent, cs) ← exponentPart cs
  some (numberOf negative whole fraction exponent, cs)

/-! ## Values -/

mutual

/-- One value at the beginning of the text. The first argument bounds the depth of calls. -/
def value : Nat → Outline → List Char → Option (Json × List Char)
  | 0, _, _ => none
  | fuel + 1, o, cs =>
    match cs with
    | 'n' :: 'u' :: 'l' :: 'l' :: rest => some (.null, rest)
    | 't' :: 'r' :: 'u' :: 'e' :: rest => some (.bool true, rest)
    | 'f' :: 'a' :: 'l' :: 's' :: 'e' :: rest => some (.bool false, rest)
    | '"' :: _ => (stringToken o.text cs).map fun (s, r) => (.string s, r)
    | '[' :: rest =>
      match skipSpace rest with
      | ']' :: r => some (.array [], r)
      | r => (items fuel o r).map fun (vs, r) => (.array vs, r)
    | '\x7b' :: rest =>
      match skipSpace rest with
      | '\x7d' :: r => some (.object [], r)
      | r => (members fuel o r).map fun (es, r) => (.object es, r)
    | _ => (numberToken cs).map fun (n, r) => (.number n, r)

def items : Nat → Outline → List Char → Option (List Json × List Char)
  | 0, _, _ => none
  | fuel + 1, o, cs =>
    match value fuel o.first cs with
    | none => none
    | some (v, rest) =>
      match skipSpace rest with
      | ']' :: r => some ([v], r)
      | ',' :: r => (items fuel o.later (skipSpace r)).map fun (vs, r) => (v :: vs, r)
      | _ => none

def members : Nat → Outline → List Char → Option (List (String × Json) × List Char)
  | 0, _, _ => none
  | fuel + 1, o, cs =>
    match stringToken o.keys cs with
    | none => none
    | some (k, rest) =>
      match skipSpace rest with
      | ':' :: r =>
        match value fuel (o.entry k) (skipSpace r) with
        | none => none
        | some (v, rest) =>
          match skipSpace rest with
          | '\x7d' :: r => some ([(k, v)], r)
          | ',' :: r => (members fuel o (skipSpace r)).map fun (es, r) => ((k, v) :: es, r)
          | _ => none
      | _ => none

end

/-- The value that a whole text denotes. Every call but those for an item or an entry uses up a
character, so that twice the length bounds the depth. -/
def readChars (o : Outline) (cs : List Char) : Option Json :=
  match value (2 * cs.length + 2) o (skipSpace cs) with
  | some (v, rest) => if (skipSpace rest).isEmpty then some v else none
  | none => none

def read (s : String) : Option Json := readChars .whole s.toList

/-! ## Bytes -/

/-- How a byte that belongs to no character is spelled: as what stands nowhere but in a string, and
there not in an escape or in a text. -/
def stray : List Char := "x\\udc00".toList

def spell : List UInt8 → List Char
  | [] => []
  | byte :: rest =>
    match (byte :: rest.take 3).toByteArray.utf8DecodeChar? 0 with
    | some c => c :: spell (rest.drop (c.utf8Size - 1))
    | none => stray ++ spell rest
termination_by bytes => bytes.length

def readBytes (o : Outline) (bytes : ByteArray) : Option Json := readChars o (spell bytes.toList)

end Intake.Json
