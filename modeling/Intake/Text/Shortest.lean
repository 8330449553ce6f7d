/-!
# Shortest decimals

The decimal with the fewest digits that is nearest to a given binary floating point
number, among those that round to it. Everything is exact arithmetic on natural numbers:
a double is `mantissa * 2 ^ exponent`, a decimal is `digits * 10 ^ exponent`.
-/

namespace Intake.Text.Shortest

/-- A positive double with its mantissa below 2⁵³. -/
structure Binary where
  mantissa : Nat
  exponent : Int
  deriving DecidableEq, Repr

structure Decimal where
  digits : Nat
  exponent : Int
  deriving DecidableEq, Repr

def power (base : Nat) (exponent : Int) : Nat := base.pow exponent.toNat

/-- `n / d`, rounded to the nearest number, a half to the even one. -/
def roundDiv (n d : Nat) : Nat :=
  let q := n / d
  let r := n % d
  if 2 * r < d || (2 * r == d && q % 2 == 0) then q else q + 1

def leastMantissa : Nat := 4503599627370496

/-- The double nearest to a decimal; the exponent range is not bounded above. -/
def Binary.nearest (x : Decimal) : Binary :=
  let num := x.digits * power 10 x.exponent
  let den := power 10 (-x.exponent)
  let guess : Int := (num.log2 : Int) - den.log2 - 52
  let scaled (q : Int) : Nat := roundDiv (num * power 2 (-q)) (den * power 2 q)
  let q :=
    if num * power 2 (-guess) < leastMantissa * (den * power 2 guess) then guess - 1 else guess
  let q := max q (-1074)
  let m := scaled q
  if m = 2 * leastMantissa then ⟨leastMantissa, q + 1⟩ else ⟨m, q⟩

/-- Where the decimals that round to `x` begin and end, in quarters of its last bit. -/
def Binary.interval (x : Binary) : Nat × Nat :=
  (if x.mantissa = leastMantissa ∧ x.exponent ≠ -1074 then 4 * x.mantissa - 1
    else 4 * x.mantissa - 2,
    4 * x.mantissa + 2)

/-- The point of the grid of multiples of `10 ^ t` that is nearest to `x`, if it rounds to `x`. -/
def Binary.onGrid (x : Binary) (t : Int) : Option Nat :=
  let up := power 2 (x.exponent - 2) * power 10 (-t)
  let down := power 2 (2 - x.exponent) * power 10 t
  let (low, high) := x.interval
  let admits (d : Nat) : Bool :=
    if x.mantissa % 2 = 0 then low * up ≤ d * down && d * down ≤ high * up
    else low * up < d * down && d * down < high * up
  let below := 4 * x.mantissa * up / down
  let nearest := roundDiv (4 * x.mantissa * up) down
  let other := if nearest = below then below + 1 else below
  if nearest ≠ 0 && admits nearest then some nearest
  else if other ≠ 0 && admits other then some other
  else none

/-- Tries `count` grids, from the one of `10 ^ t` to finer ones. -/
def Binary.search (x : Binary) : Nat → Int → Option Decimal
  | 0, _ => none
  | count + 1, t =>
    match x.onGrid t with
    | some d => some ⟨d, t⟩
    | none => x.search count (t - 1)

def Binary.shortest (x : Binary) : Option Decimal := x.search 660 320

end Intake.Text.Shortest
