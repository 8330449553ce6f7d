import Intake.Time.Calendar
import Intake.Text.Decimal

/-!
# Instants

An instant is a number of whole seconds since 1970-01-01T00:00:00Z and a number of
nanoseconds counted upwards from there. During a leap second the whole seconds stay at
the last second of the minute and the nanoseconds run on past 10⁹. Instants are ordered
first by seconds, then by nanoseconds.
-/

namespace Intake.Time

open Intake.Text

def minSecond : Int := -8334601228800
def maxSecond : Int := 8210266876799

/-- Whether the pair denotes an instant. -/
def InRange (seconds : Int) (nanos : Nat) : Prop :=
  minSecond ≤ seconds ∧ seconds ≤ maxSecond ∧ nanos < 2000000000 ∧
    (1000000000 ≤ nanos → seconds % 60 = 59)

instance (seconds : Int) (nanos : Nat) : Decidable (InRange seconds nanos) := by
  unfold InRange; infer_instance

structure Instant where
  seconds : Int
  nanos : Nat
  inRange : InRange seconds nanos
  deriving DecidableEq

namespace Instant

def of? (seconds : Int) (nanos : Nat) : Option Instant :=
  if h : InRange seconds nanos then some ⟨seconds, nanos, h⟩ else none

def epoch : Instant := ⟨0, 0, by decide⟩

instance : Inhabited Instant := ⟨epoch⟩

instance : LE Instant :=
  ⟨fun s t => s.seconds < t.seconds ∨ (s.seconds = t.seconds ∧ s.nanos ≤ t.nanos)⟩

instance (s t : Instant) : Decidable (s ≤ t) :=
  inferInstanceAs (Decidable (_ ∨ _))

def earlier (s t : Instant) : Instant := if s ≤ t then s else t

def later (s t : Instant) : Instant := if s ≤ t then t else s

/-! ## Fields on the calendar -/

def date (t : Instant) : Date := Date.ofDays (t.seconds / 86400)

def secondOfDay (t : Instant) : Nat := (t.seconds % 86400).toNat

/-! ## Text -/

/-- Four digits for the years 0 to 9999, else a sign and at least four digits. -/
def yearText (year : Int) : List Char :=
  if 0 ≤ year ∧ year ≤ 9999 then Decimal.padded 4 year.toNat
  else (if 0 ≤ year then '+' else '-') :: Decimal.padded 4 year.natAbs

/-- No digits, three, six or nine, the fewest that are exact. -/
def fractionText (nanos : Nat) : List Char :=
  if nanos = 0 then []
  else if nanos % 1000000 = 0 then '.' :: Decimal.padded 3 (nanos / 1000000)
  else if nanos % 1000 = 0 then '.' :: Decimal.padded 6 (nanos / 1000)
  else '.' :: Decimal.padded 9 nanos

def dateText (t : Instant) : List Char :=
  let d := t.date
  yearText d.year ++ '-' :: (Decimal.padded 2 d.month ++ '-' :: Decimal.padded 2 d.day)

/-- Hours, minutes and seconds; a leap second is written as second 60. -/
def timeText (t : Instant) : List Char :=
  let s := t.secondOfDay
  let second := if 1000000000 ≤ t.nanos then s % 60 + 1 else s % 60
  Decimal.padded 2 (s / 3600) ++ ':' :: (Decimal.padded 2 (s / 60 % 60) ++
    ':' :: (Decimal.padded 2 second ++ fractionText (t.nanos % 1000000000)))

def text (t : Instant) : String :=
  String.ofList (t.dateText ++ 'T' :: (t.timeText ++ ['Z']))

def spacedText (t : Instant) : String :=
  String.ofList (t.dateText ++ ' ' :: (t.timeText ++ " UTC".toList))

/-- Epoch seconds with six decimal places (seven inside a leap second). -/
def epochText (t : Instant) : String :=
  let whole := match t.seconds with
    | .ofNat n => Decimal.digits n
    | .negSucc n => '-' :: Decimal.digits (n + 1)
  String.ofList (whole ++ '.' :: Decimal.padded 6 (t.nanos / 1000))

end Instant

end Intake.Time
