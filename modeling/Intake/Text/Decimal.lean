/-!
# Decimal digits

Natural numbers written with the digits `0` to `9`. Reading back what `digits` or
`padded` wrote gives the number again.
-/

namespace Intake.Text.Decimal

def digits (n : Nat) : List Char := Nat.toDigits 10 n

/-- The digits of `n`, filled up with zeros on the left to at least `width` places. -/
def padded (width n : Nat) : List Char :=
  List.replicate (width - (digits n).length) '0' ++ digits n

def value (cs : List Char) : Nat := Nat.ofDigitChars 10 cs 0

def read (cs : List Char) : Option Nat :=
  if !cs.isEmpty && cs.all Char.isDigit then some (value cs) else none

/-- Reads a number below `bound`, with an optional plus sign in front. -/
def readBelow (bound : Nat) (cs : List Char) : Option Nat :=
  let body := match cs with
    | '+' :: rest => rest
    | _ => cs
  (read body).filter (· < bound)

theorem value_digits (n : Nat) : value (digits n) = n :=
  Nat.ofDigitChars_toDigits (by decide) (by decide)

theorem digits_ne_nil (n : Nat) : digits n ≠ [] := Nat.toDigits_ne_nil

theorem isDigit_of_mem_digits {n : Nat} {c : Char} (h : c ∈ digits n) : c.isDigit = true :=
  Nat.isDigit_of_mem_toDigits (by decide) (by decide) h

theorem read_digits (n : Nat) : read (digits n) = some n := by
  have hall : (digits n).all Char.isDigit = true :=
    List.all_eq_true.2 fun _ h => isDigit_of_mem_digits h
  have hne : (digits n).isEmpty = false := by
    simpa [List.isEmpty_iff] using digits_ne_nil n
  simp [read, hall, hne, value_digits]

theorem value_padded (width n : Nat) : value (padded width n) = n := by
  simp [padded, value, Nat.ofDigitChars_append, Nat.ofDigitChars_replicate_zero]
  exact value_digits n

end Intake.Text.Decimal
