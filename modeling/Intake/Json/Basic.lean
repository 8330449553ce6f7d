import Intake.Text.Decimal
import Intake.Text.Shortest

/-!
# JSON values

Objects are lists of entries: their order is the order of the text, and a key may occur
more than once. The canonical form of a value has the entries of every object sorted by
key, and of equal keys the last one.
-/

namespace Intake

/-- A number as it was written: an integer of 64 bits, or any other number as a decimal. -/
inductive Number where
  | integer (n : Int)
  | real (negative : Bool) (digits : Nat) (exponent : Int)
  deriving DecidableEq, Repr

inductive Json where
  | null
  | bool (b : Bool)
  | number (n : Number)
  | string (s : String)
  | array (items : List Json)
  | object (entries : List (String × Json))
  deriving Repr, Inhabited

namespace Number

/-- Integers have 64 bits: signed if negative, unsigned otherwise. -/
def fits (n : Int) : Bool := -9223372036854775808 ≤ n && n ≤ 18446744073709551615

def ofNat (n : Nat) : Number := .integer n

def intText : Int → List Char
  | .ofNat n => Text.Decimal.digits n
  | .negSucc n => '-' :: Text.Decimal.digits (n + 1)

/-- Where the point stands decides the notation: positional from 10⁻⁵ up to 10¹⁶, else with an
exponent that always has a sign. -/
def decimalText (x : Text.Shortest.Decimal) : List Char :=
  let ds := Text.Decimal.digits x.digits
  let point : Int := ds.length + x.exponent
  if 0 ≤ x.exponent ∧ point ≤ 16 then
    ds ++ List.replicate x.exponent.toNat '0' ++ ['.', '0']
  else if 0 < point ∧ point ≤ 16 then
    ds.take point.toNat ++ '.' :: ds.drop point.toNat
  else if -5 < point ∧ point ≤ 0 then
    '0' :: '.' :: (List.replicate (-point).toNat '0' ++ ds)
  else
    let exponent := point - 1
    let mark := (if exponent < 0 then '-' else '+') :: Text.Decimal.digits exponent.natAbs
    match ds with
    | [d] => d :: 'e' :: mark
    | d :: rest => d :: '.' :: (rest ++ 'e' :: mark)
    | [] => []

/-- The shortest text that denotes the same double; what is too large for a double is `inf`. -/
def realText (digits : Nat) (exponent : Int) : List Char :=
  let point : Int := (Text.Decimal.digits digits).length + exponent
  if digits = 0 ∨ point < -400 then "0.0".toList
  else if 400 < point then "inf".toList
  else
    let x := Text.Shortest.Binary.nearest ⟨digits, exponent⟩
    if 971 < x.exponent then "inf".toList
    else match x.shortest with
      | some d => decimalText d
      | none => "0.0".toList

def text : Number → List Char
  | .integer n => intText n
  | .real negative digits exponent => (if negative then ['-'] else []) ++ realText digits exponent

end Number

namespace Json

def kind : Json → String
  | .null => "null"
  | .bool _ => "bool"
  | .number _ => "number"
  | .string _ => "string"
  | .array _ => "array"
  | .object _ => "object"

/-- Puts an entry where its key belongs in a sorted list without equal keys, unless the key
is there already. -/
def insertFirst (k : String) (v : Json) : List (String × Json) → List (String × Json)
  | [] => [(k, v)]
  | (k', v') :: rest =>
    if k = k' then (k', v') :: rest
    else if k < k' then (k, v) :: (k', v') :: rest
    else (k', v') :: insertFirst k v rest

mutual

/-- Sorts the entries of all objects by key; of equal keys the last entry stays. -/
def canonical : Json → Json
  | .array items => .array (canonicalItems items)
  | .object entries => .object (canonicalEntries entries)
  | v => v
termination_by structural v => v

def canonicalItems : List Json → List Json
  | [] => []
  | v :: rest => canonical v :: canonicalItems rest

def canonicalEntries : List (String × Json) → List (String × Json)
  | [] => []
  | (k, v) :: rest => insertFirst k (canonical v) (canonicalEntries rest)

end

def field? (key : String) : Json → Option Json
  | .object entries => entries.lookup key
  | _ => none

/-- Sets the value of a key in the entries of an object, in its place or at the end. -/
def setEntry (key : String) (v : Json) : List (String × Json) → List (String × Json)
  | [] => [(key, v)]
  | (k, w) :: rest => if k = key then (k, v) :: rest else (k, w) :: setEntry key v rest

/-! ## Outlines -/

/-- Which parts of a value are looked at. -/
inductive Outline where
  | nothing
  | whole
  | each (item : Outline)
  /-- These fields of a record, in their order. -/
  | fields (parts : List (String × Outline))

namespace Outline

/-- Whether a text is looked at. -/
def text : Outline → Bool
  | .whole => true
  | _ => false

/-- Whether the keys of an object are looked at. -/
def keys : Outline → Bool
  | .whole | .fields _ => true
  | _ => false

/-- What is looked at in the entry with a key. -/
def entry (key : String) : Outline → Outline
  | .whole => .whole
  | .fields parts => (parts.lookup key).getD .nothing
  | _ => .nothing

/-- What is looked at in the first item of an array. -/
def first : Outline → Outline
  | .whole => .whole
  | .each item => item
  | .fields ((_, item) :: _) => item
  | _ => .nothing

/-- What is looked at in the items after the first one. -/
def later : Outline → Outline
  | .fields parts => .fields parts.tail
  | o => o

end Outline

end Json

end Intake
