import Intake.Environment
import Intake.Environment.Assignment
import Intake.Files.System

/-!
# Files of assignments

A file named `.env` in the current directory or the nearest one above it. Its lines are
read in turn up to the first that is broken, and each sets a variable that is not set yet.
A line goes on in the next one while a quote is open or its end is escaped.
-/

namespace Intake.Environment

open Files

/-! ## Logical lines -/

/-- What is open at some place in a line. -/
inductive Openness where
  | complete
  | blank
  | escape
  | weak
  | weakEscape
  | strong
  | strongEscape
  deriving DecidableEq, Repr

/-- A character outside quotes that is not after a backslash. -/
def Openness.begin (c : Char) : Openness :=
  if c = '\\' then .escape
  else if c = '"' then .weak
  else if c = '\'' then .strong
  else .complete

def Openness.next (c : Char) : Openness → Openness
  | .blank => .begin c
  | .complete =>
    if Text.isBlank c ∧ c ≠ '\n' ∧ c ≠ '\r' then .blank else .begin c
  | .escape => .complete
  | .weak => if c = '\\' then .weakEscape else if c = '"' then .complete else .weak
  | .weakEscape => .weak
  | .strong => if c = '\\' then .strongEscape else if c = '\'' then .complete else .strong
  | .strongEscape => .strong

/-- What is open after some characters, or the characters before a comment. -/
def scan : Openness → List Char → Openness ⊕ List Char
  | .blank, '#' :: _ => .inr []
  | o, [] => .inl o
  | o, c :: rest =>
    match scan (o.next c) rest with
    | .inl o => .inl o
    | .inr kept => .inr (c :: kept)

def chomp (cs : List Char) : List Char :=
  match cs.reverse with
  | '\n' :: '\r' :: rest => rest.reverse
  | '\n' :: rest => rest.reverse
  | _ => cs

/-- The logical lines of some lines; none for one that is no text or has no end, after which
nothing is read. -/
def logicalLines : Openness → List Char → List (Option (List Char)) → List (Option (List Char))
  | o, _, [] => if o = .complete then [] else [none]
  | _, _, none :: _ => [none]
  | o, before, some line :: rest =>
    if ((before ++ line).dropWhile Text.isBlank).head? = some '#' then
      some [] :: logicalLines .complete [] rest
    else
      match scan o line with
      | .inr kept => some (before ++ kept) :: logicalLines .complete [] rest
      | .inl .complete => some (chomp (before ++ line)) :: logicalLines .complete [] rest
      | .inl o => logicalLines o (before ++ line) rest

def byteLines : List UInt8 → List (List UInt8)
  | [] => []
  | b :: rest =>
    if b = 10 then [b] :: byteLines rest
    else
      match byteLines rest with
      | [] => [[b]]
      | line :: lines => (b :: line) :: lines

def dropMark : List UInt8 → List UInt8
  | 0xEF :: 0xBB :: 0xBF :: rest => rest
  | bytes => bytes

def linesOf (content : ByteArray) : List (Option (List Char)) :=
  (byteLines (dropMark content.toList)).map fun line =>
    (String.fromUTF8? ⟨line.toArray⟩).map String.toList

/-! ## Loading -/

def lookup (e : Environment) (name : List Char) : List Char :=
  ((e.get? (String.ofList name)).getD "").toList

/-- Carries out the lines up to the first that is broken. -/
def apply (e : Environment) : List (Option (List Char)) → Environment
  | some line :: rest =>
    match Line.read e.lookup line with
    | .empty => e.apply rest
    | .assign name value => (e.extend [(name, value)]).apply rest
    | .broken => e
  | _ => e

def upwards (loc : Location) : List Location :=
  (List.range (loc.length + 1)).map fun n => loc.take (loc.length - n)

/-- The file of assignments in the nearest directory that has one. -/
def assignments? (fs : FileSystem) : Option ByteArray :=
  (upwards fs.cwd).findSome? fun dir =>
    match fs.get? (dir ++ [".env"]) with
    | some (.file content) => some content
    | _ => none

def load (e : Environment) (fs : FileSystem) : Environment :=
  match assignments? fs with
  | some content => e.apply (logicalLines .complete [] (linesOf content))
  | none => e

end Intake.Environment
