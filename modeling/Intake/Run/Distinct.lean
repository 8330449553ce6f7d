/-!
# One document per locator

Of several things with the same key the first one stays, in the place that it has.
-/

namespace Intake.Run

/-- The things whose keys are not among `seen`, the first one of each key. -/
def firstsAfter {α : Type} (key : α → String) (seen : List String) : List α → List α
  | [] => []
  | a :: rest =>
    if key a ∈ seen then firstsAfter key seen rest
    else a :: firstsAfter key (key a :: seen) rest

def firsts {α : Type} (key : α → String) (as : List α) : List α := firstsAfter key [] as

end Intake.Run
