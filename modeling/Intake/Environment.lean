/-!
# The environment

The variables that a program is started with, and the home directory that the system has
on record for the account.
-/

namespace Intake

structure Environment where
  entries : List (String × String)
  accountHome : Option String

namespace Environment

def get? (e : Environment) (name : String) : Option String := e.entries.lookup name

/-- The value of a variable that is set and not empty. -/
def getFilled? (e : Environment) (name : String) : Option String :=
  (e.get? name).filter (!·.isEmpty)

/-- Adds variables that are not set yet. -/
def extend (e : Environment) (more : List (String × String)) : Environment :=
  { e with entries := e.entries ++ more.filter fun v => (e.get? v.1).isNone }

end Environment

end Intake
