import Intake.Json.Basic
import Intake.Text.Quoted
import Intake.Time.Formats

/-!
# Decoding JSON

What a JSON value has to look like to be a text, a number, a list or a record, and in
which way it can fail to. A record is written as an object with named fields or as an
array with the fields in their order. The first fault in the order of the text is the
one that is reported; a missing field is reported after all faults of the others.
-/

namespace Intake.Json

inductive Mismatch where
  | wrongType (found : Json) (expected : String)
  | wrongValue (found : Json) (expected : String)
  | wrongLength (length : Nat) (expected : String)
  | missingField (name : String)
  | duplicateField (name : String)
  | unknownVariant (name : String) (known : List String)
  | notATime (error : Time.TimeError)
  deriving Repr

def described : Json → String
  | .null => "null"
  | .bool b => "boolean `" ++ (if b then "true" else "false") ++ "`"
  | .number (.integer n) => "integer `" ++ String.ofList (Number.intText n) ++ "`"
  | .number n => "floating point `" ++ String.ofList n.text ++ "`"
  | .string s => "string " ++ Text.quote s
  | .array _ => "sequence"
  | .object _ => "map"

def nameList (names : List String) : String :=
  ", ".intercalate (names.map fun n => "`" ++ n ++ "`")

def Mismatch.message : Mismatch → String
  | .wrongType found expected =>
    "invalid type: " ++ found.described ++ ", expected " ++ expected
  | .wrongValue found expected =>
    "invalid value: " ++ found.described ++ ", expected " ++ expected
  | .wrongLength length expected =>
    "invalid length " ++ String.ofList (Text.Decimal.digits length) ++ ", expected " ++ expected
  | .missingField name => "missing field `" ++ name ++ "`"
  | .duplicateField name => "duplicate field `" ++ name ++ "`"
  | .unknownVariant name known =>
    "unknown variant `" ++ name ++ "`, " ++
      match known with
      | [] => "there are no variants"
      | [a] => "expected `" ++ a ++ "`"
      | [a, b] => "expected `" ++ a ++ "` or `" ++ b ++ "`"
      | _ => "expected one of " ++ nameList known
  | .notATime error => error.message

abbrev Decoder (α : Type) := Json → Except Mismatch α

namespace Decode

/-! ## Plain values -/

def string : Decoder String
  | .string s => .ok s
  | v => .error (.wrongType v "a string")

def path : Decoder String
  | .string s => .ok s
  | v => .error (.wrongType v "path string")

def boolean : Decoder Bool
  | .bool b => .ok b
  | v => .error (.wrongType v "a boolean")

/-- A number below `bound`; `type` names the type in messages. -/
def natural (type : String) (bound : Nat) : Decoder Nat
  | .number (.integer n) =>
    if 0 ≤ n ∧ n < bound then .ok n.toNat else .error (.wrongValue (.number (.integer n)) type)
  | v => .error (.wrongType v type)

def nat32 : Decoder Nat := natural "u32" 4294967296

def nat64 : Decoder Nat := natural "usize" 18446744073709551616

def instant : Decoder Time.Instant
  | .string s =>
    match Time.readRelaxed s.toList with
    | .ok t => .ok t
    | .error e => .error (.notATime e)
  | v => .error (.wrongType v "an RFC 3339 formatted date and time string")

def optional {α : Type} (decode : Decoder α) : Decoder (Option α)
  | .null => .ok none
  | v => (decode v).map some

def list {α : Type} (decode : Decoder α) : Decoder (List α)
  | .array vs => vs.mapM decode
  | v => .error (.wrongType v "a sequence")

def named {α : Type} (table : List (String × α)) (name : String) : Except Mismatch α :=
  match table.lookup name with
  | some a => .ok a
  | none => .error (.unknownVariant name (table.map (·.1)))

/-- One of several names, alone or as the only key of an object with the value `null`. -/
def oneOf {α : Type} (table : List (String × α)) : Decoder α
  | .string s => named table s
  | .object [(k, v)] => do
    let a ← named table k
    match v with
    | .null => .ok a
    | _ => .error (.wrongType v "unit")
  | .object entries => .error (.wrongValue (.object entries) "map with a single key")
  | v => .error (.wrongType v "string or map")

/-! ## Records -/

/-- A field as it is seen before the record is built. -/
structure Field where
  name : String
  check : Json → Except Mismatch Unit
  inObject : Bool
  inArray : Bool

def Field.required {α : Type} (name : String) (decode : Decoder α) : Field :=
  ⟨name, fun v => (decode v).map fun _ => (), true, true⟩

def Field.defaulted {α : Type} (name : String) (decode : Decoder α) : Field :=
  ⟨name, fun v => (decode v).map fun _ => (), false, false⟩

/-- A field that may be left out of an object only. -/
def Field.nullable {α : Type} (name : String) (decode : Decoder α) : Field :=
  ⟨name, fun v => ((optional decode) v).map fun _ => (), false, true⟩

/-- Checks the entries that belong to one of the fields, in their order. -/
def checkEntries (fields : List Field) (seen : List String) :
    List (String × Json) → Except Mismatch Unit
  | [] => .ok ()
  | (k, v) :: rest =>
    match fields.find? (·.name == k) with
    | none => checkEntries fields seen rest
    | some f =>
      if k ∈ seen then .error (.duplicateField k)
      else do
        f.check v
        checkEntries fields (k :: seen) rest

def checkMissing (fields : List Field) (entries : List (String × Json)) : Except Mismatch Unit :=
  match fields.find? fun f => f.inObject && (entries.lookup f.name).isNone with
  | some f => .error (.missingField f.name)
  | none => .ok ()

def checkObject (fields : List Field) (entries : List (String × Json)) : Except Mismatch Unit := do
  checkEntries fields [] entries
  checkMissing fields entries

/-- How a record is named in messages, and how an array with too many items is refused. -/
structure Shape where
  name : String
  fields : List Field
  tooMany : Nat → String := fun _ => "fewer elements in array"

def Shape.withCount (s : Shape) : String :=
  "struct " ++ s.name ++ " with " ++ String.ofList (Text.Decimal.digits s.fields.length) ++
    (if s.fields.length = 1 then " element" else " elements")

/-- The fields of a record are looked at as wholes, but for these. -/
def Shape.outline (s : Shape) (inner : List (String × Outline) := []) : Outline :=
  .fields (s.fields.map fun f => (f.name, (inner.lookup f.name).getD .whole))

def checkItems (s : Shape) : Nat → List Field → List Json → Except Mismatch Unit
  | _, [], [] => .ok ()
  | index, [], extra => .error (.wrongLength (index + extra.length) (s.tooMany index))
  | index, f :: fs, [] =>
    if f.inArray then .error (.wrongLength index s.withCount) else checkItems s (index + 1) fs []
  | index, f :: fs, v :: vs => do
    f.check v
    checkItems s (index + 1) fs vs

/-- The entries of a record, checked; an array gets the names of the fields. -/
def entriesOf (s : Shape) : Decoder (List (String × Json))
  | .object entries => do
    checkObject s.fields entries
    .ok entries
  | .array items => do
    checkItems s 0 s.fields items
    .ok ((s.fields.map (·.name)).zip items)
  | v => .error (.wrongType v ("struct " ++ s.name))

def field {α : Type} (entries : List (String × Json)) (name : String) (decode : Decoder α) :
    Except Mismatch α :=
  match entries.lookup name with
  | some v => decode v
  | none => .error (.missingField name)

/-- The value of a field, or what stands for it when it is left out. -/
def fieldD {α : Type} (entries : List (String × Json)) (name : String) (decode : Decoder α)
    (default : α) : Except Mismatch α :=
  match entries.lookup name with
  | some v => decode v
  | none => .ok default

end Decode

end Intake.Json
