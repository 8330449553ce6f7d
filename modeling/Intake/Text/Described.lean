/-!
# Descriptions of values

The text of a structured value for debugging: the name of its type with its fields, a
list in brackets, an optional value with its presence.
-/

namespace Intake.Text

/-- A name, then the fields between braces. -/
def describeRecord (name : String) (fields : List (String × String)) : String :=
  name ++ " \x7b " ++ ", ".intercalate (fields.map fun f => f.1 ++ ": " ++ f.2) ++ " \x7d"

def describeList (items : List String) : String := "[" ++ ", ".intercalate items ++ "]"

def describeOption : Option String → String
  | some s => "Some(" ++ s ++ ")"
  | none => "None"

def describeBool (b : Bool) : String := if b then "true" else "false"

end Intake.Text
