import Intake.Logging.Config
import Intake.Text.Decimal
import Intake.Text.Split

/-!
# Directives

A directive sets the level for a part of a program: `target[span{field}]=level`. Target,
span and level may be left out, and so may the field within a span; a level alone is a
directive too. Several directives are written with commas between them.
-/

namespace Intake.Logging.Directive

def levelWords : List String := "off" :: Level.table.map (·.1)

/-- Whether a text names a level by its number or by its word in any case. -/
def isLevel (cs : List Char) : Bool :=
  (Text.Decimal.readBelow 6 cs).isSome ||
    String.ofList (cs.map Char.toLower) ∈ levelWords

/-- What follows the span of a directive: nothing, or a level, which may be empty. -/
def endsWell : List Char → Bool
  | [] => true
  | '=' :: level => level.isEmpty || isLevel level
  | _ => false

def fieldEndsWell (cs : List Char) : Bool :=
  match cs.dropWhile (· ≠ '\x7d') with
  | '\x7d' :: ']' :: rest => cs.head? != some '\x7d' && endsWell rest
  | _ => false

def spanEndsWell (cs : List Char) : Bool :=
  match cs.dropWhile fun c => c ≠ ']' ∧ c ≠ '\x7b' with
  | ']' :: rest => endsWell rest
  | '\x7b' :: rest => fieldEndsWell rest
  | _ => false

/-- Whether a target can begin like this. All letters beyond the basic ones are taken for
granted. -/
def beginsTarget (c : Char) : Bool :=
  c.isAlphanum || c == '-' || c == ':' || c == '_' || 0x80 ≤ c.toNat

def fits : List Char → Bool
  | [] => false
  | '[' :: rest => spanEndsWell rest
  | c :: rest =>
    beginsTarget c &&
      match rest.dropWhile fun c => c ≠ '=' ∧ c ≠ '[' with
      | '[' :: rest => spanEndsWell rest
      | rest => endsWell rest

def pieces (filter : String) : List (List Char) :=
  ((Text.splitAt ',' filter.toList).map Text.trimChars).filter (!·.isEmpty)

end Intake.Logging.Directive
