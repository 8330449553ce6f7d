/-!
# Scripts

Answers that are laid down beforehand. They are given one after the other, and the last
one again and again.
-/

namespace Intake

structure Script (α : Type) where
  answers : List α

namespace Script

variable {α : Type}

def next : Script α → Option α × Script α
  | ⟨[]⟩ => (none, ⟨[]⟩)
  | ⟨[a]⟩ => (some a, ⟨[a]⟩)
  | ⟨a :: b :: rest⟩ => (some a, ⟨b :: rest⟩)

end Script

end Intake
