import Intake.Time.Instant
import Intake.Time.Scan

/-!
# Written times

The notations that times are read in: plain dates, dates with a time, dates with a time
and an offset, RFC 3339 in its strict and its relaxed form, and epoch seconds. A second
60 is read as a leap second, in any minute.
-/

namespace Intake.Time

open Intake.Text Scan

structure Written where
  year : Int
  month : Nat
  day : Nat
  hour : Nat
  minute : Nat
  second : Nat
  nanos : Nat
  offset : Int
  deriving DecidableEq, Repr

/-- The instant that is meant; a time without offset is in UTC. -/
def Written.instant (w : Written) : Except TimeError Instant := do
  let some d := Date.of? w.year w.month w.day | .error .outOfRange
  if 86400 ≤ w.offset.natAbs then .error .outOfRange
  let leap := w.second == 60
  let clock := w.hour * 3600 + w.minute * 60 + (if leap then 59 else w.second)
  match Instant.of? (d.toDays * 86400 + clock - w.offset)
      (if leap then 1000000000 + w.nanos else w.nanos) with
  | some t => .ok t
  | none => .error .impossible

def finish {α : Type} (r : Except TimeError (α × List Char)) : Except TimeError α :=
  r.bind fun (a, rest) => if rest.isEmpty then .ok a else .error .tooLong

/-! ## Dates given on the command line -/

/-- Year, month and day of any width up to four and two digits, each after optional blanks. -/
def scanDate (cs : List Char) : Except TimeError ((Int × Nat × Nat) × List Char) := do
  let (year, cs) ← signedYear (skipBlanks cs)
  let cs ← literal '-' cs
  let (month, cs) ← bounded 1 12 1 (some 2) (skipBlanks cs)
  let cs ← literal '-' cs
  let (day, cs) ← bounded 1 31 1 (some 2) (skipBlanks cs)
  .ok ((year, month, day), cs)

def scanClock (cs : List Char) : Except TimeError ((Nat × Nat × Nat) × List Char) := do
  let (hour, cs) ← bounded 0 23 1 (some 2) (skipBlanks cs)
  let cs ← literal ':' cs
  let (minute, cs) ← bounded 0 59 1 (some 2) (skipBlanks cs)
  let cs ← literal ':' cs
  let (second, cs) ← bounded 0 60 1 (some 2) (skipBlanks cs)
  .ok ((hour, minute, second), cs)

/-- `2023-04-01`, the beginning of the day. -/
def readDate (cs : List Char) : Except TimeError Instant := do
  let (year, month, day) ← finish (scanDate cs)
  Written.instant ⟨year, month, day, 0, 0, 0, 0, 0⟩

def scanDateTime (cs : List Char) : Except TimeError (Written × List Char) := do
  let ((year, month, day), cs) ← scanDate cs
  let cs ← literal 'T' cs
  let ((hour, minute, second), cs) ← scanClock cs
  .ok (⟨year, month, day, hour, minute, second, 0, 0⟩, cs)

/-- `2023-04-01T12:30:00`. -/
def readDateTime (cs : List Char) : Except TimeError Instant := do
  (← finish (scanDateTime cs)).instant

/-- `2023-04-01T12:30:00+0200`, also with blanks and colons inside the offset. -/
def readOffsetDateTime (cs : List Char) : Except TimeError Instant := do
  let (w, cs) ← scanDateTime cs
  let offset ← finish (offset ⟨.loose, false⟩ (skipBlanks cs))
  Written.instant { w with offset := offset }

/-! ## RFC 3339 -/

def dateMark : List Char → Except TimeError (List Char)
  | [] => .error .tooShort
  | c :: rest => if c == 'T' || c == 't' || c == ' ' then .ok rest else .error .invalid

def readRfc3339 (cs : List Char) : Except TimeError Instant := do
  let (year, cs) ← number 4 (some 4) cs
  let cs ← literal '-' cs
  let (month, cs) ← bounded 1 12 2 (some 2) cs
  let cs ← literal '-' cs
  let (day, cs) ← bounded 1 31 2 (some 2) cs
  let cs ← dateMark cs
  let (hour, cs) ← bounded 0 23 2 (some 2) cs
  let cs ← literal ':' cs
  let (minute, cs) ← bounded 0 59 2 (some 2) cs
  let cs ← literal ':' cs
  let (second, cs) ← bounded 0 60 2 (some 2) cs
  let (nanos, cs) ← optionalFraction cs
  let (east, cs) ← offset ⟨.colon, true⟩ cs
  if 86400 ≤ east.natAbs then .error .outOfRange
  if !cs.isEmpty then .error .tooLong
  Written.instant ⟨year, month, day, hour, minute, second, nanos, east⟩

/-- The relaxed form, which is read inside JSON: blanks may stand between the parts, numbers
may be short, years may have a sign, the colon of the offset may be missing, and `UTC` is an
offset. -/
def readRelaxed (cs : List Char) : Except TimeError Instant := do
  let (year, cs) ← signedYear (skipBlanks cs)
  if year < -2147483648 ∨ 2147483647 < year then .error .outOfRange
  let cs ← literal '-' (skipBlanks cs)
  let (month, cs) ← bounded 1 12 1 (some 2) (skipBlanks cs)
  let cs ← literal '-' (skipBlanks cs)
  let (day, cs) ← bounded 1 31 1 (some 2) (skipBlanks cs)
  let cs ← dateMark cs
  let (hour, cs) ← bounded 0 23 1 (some 2) (skipBlanks cs)
  let cs ← literal ':' (skipBlanks cs)
  let (minute, cs) ← bounded 0 59 1 (some 2) (skipBlanks cs)
  let cs ← literal ':' (skipBlanks cs)
  let (second, cs) ← bounded 0 60 1 (some 2) (skipBlanks cs)
  let (nanos, cs) ← optionalFraction cs
  let cs := skipBlanks cs
  let (east, cs) ←
    if (cs.take 3).map Char.toUpper == ['U', 'T', 'C'] then .ok (0, cs.drop 3)
    else offset ⟨.loose, true⟩ cs
  if !(skipBlanks cs).isEmpty then .error .tooLong
  Written.instant ⟨year, month, day, hour, minute, second, nanos, east⟩

/-! ## Epoch seconds -/

/-- Digits, optionally with a point and further digits, of which nine count. -/
def readEpochSeconds (cs : List Char) : Option Instant :=
  let whole := cs.takeWhile (· ≠ '.')
  let fraction := (cs.drop whole.length).drop 1
  if fraction.all Char.isDigit then
    (Decimal.read whole).bind fun seconds =>
      Instant.of? seconds (Decimal.value ((fraction.take 9).rightpad 9 '0'))
  else none

/-! ## What users and sources write -/

/-- A bound given by a user: one of the notations above, blanks at the ends ignored. -/
def readBound (s : String) : Option Instant :=
  let cs := trimChars s.toList
  (readDate cs).toOption <|> (readDateTime cs).toOption <|> (readOffsetDateTime cs).toOption <|>
    (readRfc3339 cs).toOption <|> readEpochSeconds cs

/-- A time stamp found in content: epoch seconds or RFC 3339, blanks at the ends ignored. -/
def readStamp (s : String) : Option Instant :=
  let cs := trimChars s.toList
  readEpochSeconds cs <|> (readRfc3339 cs).toOption

end Intake.Time
