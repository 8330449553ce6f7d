import Intake.Proofs.Text.Numerals

/-!
# Digits in a register

A register holds the numbers below a bound. Digits are read into it one after the other; before the
next one is taken, both the product by ten and the sum with the digit have to fit. So the register
ends with the value of all digits if this value fits, and otherwise the reading stops: no value is
ever cut to fit.
-/

namespace Intake.Text.Decimal

/-- The number with one more digit, if nothing on the way to it leaves the register. -/
def pushDigit (bound n : Nat) (c : Char) : Option Nat :=
  if 10 * n < bound then
    if 10 * n + (c.toNat - 48) < bound then some (10 * n + (c.toNat - 48)) else none
  else none

/-- Reads digits into a register for the numbers below a bound. -/
def readRegister (bound : Nat) (cs : List Char) : Option Nat := cs.foldlM (pushDigit bound) 0

variable {bound : Nat}

/-- One digit more is taken exactly if the number with it fits. -/
theorem pushDigit_eq (n : Nat) (c : Char) : pushDigit bound n c =
    if 10 * n + (c.toNat - 48) < bound then some (10 * n + (c.toNat - 48)) else none := by
  unfold pushDigit
  by_cases hproduct : 10 * n < bound
  · rw [if_pos hproduct]
  · rw [if_neg hproduct, if_neg (by omega)]

theorem readRegister_concat (ds : List Char) (c : Char) :
    readRegister bound (ds ++ [c]) = (readRegister bound ds).bind (pushDigit bound · c) := by
  unfold readRegister
  simp only [List.foldlM_append, List.foldlM_cons, List.foldlM_nil, bind_pure]
  rfl

/-- All digits are taken exactly if their value fits. -/
theorem readRegister_eq (hbound : 0 < bound) (ds : List Char) :
    readRegister bound ds = if value ds < bound then some (value ds) else none := by
  induction ds using List.reverseRecOn with
  | nil => exact (if_pos hbound).symm
  | append_singleton ds c ih =>
      rw [readRegister_concat, ih, value_concat]
      by_cases hlead : value ds < bound
      · rw [if_pos hlead, Option.bind_some, pushDigit_eq]
      · -- what does not fit by now does not fit with more digits
        rw [if_neg hlead, Option.bind_none, if_neg (by omega)]

end Intake.Text.Decimal
