import Intake.Proofs.Text.Digits
import Intake.Proofs.Time.Calendar
import Intake.Time.Formats
import Mathlib.Tactic.SplitIfs

/-!
# Written instants are read back

Every instant is read back from its text: its date is one of the calendar, its numbers have
the widths that the reader takes, and a leap second keeps its nanoseconds.
-/

namespace Intake.Time

open Text Text.Decimal Scan

namespace Scan

/-! ## Numbers -/

theorem length_le_byteLength (cs : List Char) : cs.length ≤ byteLength cs := by
  induction cs with
  | nil => exact Nat.zero_le _
  | cons c cs ih =>
      have hc := c.utf8Size_pos
      rw [byteLength] at ih
      rw [byteLength, String.ofList_cons, String.utf8ByteSize_append,
        String.utf8ByteSize_singleton, List.length_cons]
      omega

/-- Whether a reader with this limit takes all of some digits. -/
def Takes (limit : Option Nat) (ds : List Char) : Prop := ∀ k ∈ limit, ds.length ≤ k

theorem takes_none (ds : List Char) : Takes none ds := fun _ h => nomatch h

theorem takes_some {k : Nat} {ds : List Char} (h : ds.length ≤ k) : Takes (some k) ds := by
  intro k' hk
  rwa [← Option.mem_some_iff.mp hk]

/-- Digits are read up to where they end. -/
theorem number_digits {least : Nat} {limit : Option Nat} {ds rest : List Char}
    (hds : ∀ c ∈ ds, c.isDigit = true) (hleast : least ≤ ds.length) (hlimit : Takes limit ds)
    (hrest : EndsDigits rest) : number least limit (ds ++ rest) = .ok (value ds, rest) := by
  have hbytes : ¬byteLength (ds ++ rest) < least := by
    have := length_le_byteLength (ds ++ rest)
    rw [List.length_append] at this
    omega
  have htaken : leadingDigits limit (ds ++ rest) = ds := by
    cases limit with
    | none => exact hrest.takeWhile hds
    | some k =>
        rw [leadingDigits, hrest.takeWhile hds]
        exact List.take_of_length_le (hlimit k rfl)
  rw [number, if_neg hbytes]
  simp only [htaken, if_neg (Nat.not_lt.mpr hleast), List.drop_left]

theorem skipBlanks_cons {c : Char} (hc : isBlank c = false) (cs : List Char) :
    skipBlanks (c :: cs) = c :: cs := by
  rw [skipBlanks, List.dropWhile_cons_of_neg (by simp [hc])]

theorem isBlank_of_isDigit {c : Char} (h : c.isDigit = true) : isBlank c = false := by
  have hrange : 48 ≤ c.toNat ∧ c.toNat ≤ 57 := isDigit_iff.mp h
  simp only [isBlank, Bool.or_eq_false_iff, Bool.and_eq_false_iff, decide_eq_false_iff_not,
    beq_eq_false_iff_ne]
  omega

theorem skipBlanks_digits {ds : List Char} (hds : ∀ c ∈ ds, c.isDigit = true) (hne : ds ≠ [])
    (rest : List Char) : skipBlanks (ds ++ rest) = ds ++ rest := by
  cases ds with
  | nil => exact absurd rfl hne
  | cons c ds => exact skipBlanks_cons (isBlank_of_isDigit (hds c List.mem_cons_self)) _

/-- A mark between two numbers is found where it stands. -/
theorem literal_skipBlanks {c : Char} (hc : isBlank c = false) (cs : List Char) :
    literal c (skipBlanks (c :: cs)) = .ok cs := by
  rw [skipBlanks_cons hc]
  exact if_pos rfl

/-- Two digits are read as a number of at most two digits. -/
theorem bounded_padded {low high n : Nat} (hlow : low ≤ n) (hhigh : n ≤ high) (hn : n < 100)
    {rest : List Char} (hrest : EndsDigits rest) :
    bounded low high 1 (some 2) (skipBlanks (padded 2 n ++ rest)) = .ok (n, rest) := by
  have hlength : (padded 2 n).length = 2 := length_padded (by decide) hn
  have hdigits : ∀ c ∈ padded 2 n, c.isDigit = true := fun c hc => isDigit_of_mem_padded hc
  have hnumber : number 1 (some 2) (padded 2 n ++ rest) = .ok (n, rest) := by
    rw [number_digits hdigits (by omega) (takes_some (by omega)) hrest, value_padded]
  have hbounds : (decide (low ≤ n) && decide (n ≤ high)) = true := by simp [hlow, hhigh]
  rw [skipBlanks_digits hdigits (padded_ne_nil 2 n), bounded, hnumber]
  simp only [bind, Except.bind, hbounds, if_true]

/-- Digits without a sign are a year of up to four digits. -/
theorem signedYear_digits {ds : List Char} (hds : ∀ c ∈ ds, c.isDigit = true) (hne : ds ≠ [])
    (rest : List Char) :
    signedYear (ds ++ rest) =
      (number 1 (some 4) (ds ++ rest)).map fun (n, rest) => ((n : Int), rest) := by
  cases ds with
  | nil => exact absurd rfl hne
  | cons c ds =>
      have hc : c.isDigit = true := hds c List.mem_cons_self
      rw [List.cons_append, signedYear]
      · rintro more heq
        rw [(List.cons.inj heq).1] at hc
        cases hc
      · rintro more heq
        rw [(List.cons.inj heq).1] at hc
        cases hc

/-- A year is read with its sign, if it needs one. -/
theorem signedYear_yearText (year : Int) {rest : List Char} (hrest : EndsDigits rest) :
    signedYear (skipBlanks (Instant.yearText year ++ rest)) = .ok (year, rest) := by
  have hdigits : ∀ n, ∀ c ∈ padded 4 n, c.isDigit = true := fun n c hc => isDigit_of_mem_padded hc
  have hpositive : ∀ n, 1 ≤ (padded 4 n).length :=
    fun n => List.length_pos_iff.mpr (padded_ne_nil 4 n)
  rw [Instant.yearText]
  split
  · next hyear =>
      have hlength : (padded 4 year.toNat).length = 4 :=
        length_padded (by decide) (by omega)
      rw [skipBlanks_digits (hdigits _) (padded_ne_nil 4 _),
        signedYear_digits (hdigits _) (padded_ne_nil 4 _),
        number_digits (hdigits _) (hpositive _) (takes_some (by omega)) hrest, value_padded]
      simp only [Except.map, Int.toNat_of_nonneg hyear.1]
  · next hyear =>
      have hnumber : number 1 none (padded 4 year.natAbs ++ rest) =
          .ok (year.natAbs, rest) := by
        rw [number_digits (hdigits _) (hpositive _) (takes_none _) hrest, value_padded]
      split
      · next hpositive =>
          have habs : (year.natAbs : Int) = year := by omega
          rw [List.cons_append, skipBlanks_cons (by decide), signedYear, hnumber]
          simp only [Except.map, habs]
      · next hnegative =>
          have habs : -(year.natAbs : Int) = year := by omega
          rw [List.cons_append, skipBlanks_cons (by decide), signedYear, hnumber]
          simp only [Except.map, habs]

/-! ## Fractions -/

/-- A fraction of up to nine digits is read as its nanoseconds. -/
theorem fraction_padded {width n : Nat} (hwidth : 0 < width) (hnine : width ≤ 9)
    (hn : n < 10 ^ width) {rest : List Char} (hrest : EndsDigits rest) :
    fraction (padded width n ++ rest) = .ok (n * 10 ^ (9 - width), rest) := by
  have hlength : (padded width n).length = width := length_padded hwidth hn
  have hdigits : ∀ c ∈ padded width n, c.isDigit = true := fun c hc => isDigit_of_mem_padded hc
  have hleading : leadingDigits (some 9) (padded width n ++ rest) = padded width n := by
    rw [leadingDigits, hrest.takeWhile hdigits]
    exact List.take_of_length_le (by omega)
  have hafter : rest.dropWhile Char.isDigit = rest := by
    have hnothing : ([] ++ rest).dropWhile Char.isDigit = rest := hrest.dropWhile (by simp)
    exact hnothing
  rw [fraction, number_digits hdigits (by omega) (takes_some (by omega)) hrest]
  simp only [bind, Except.bind, hleading, value_rightpad, value_padded, List.drop_left, hafter]
  rw [hlength]

/-- Nanoseconds are read back from the digits that they are written with. -/
theorem optionalFraction_fractionText {nanos : Nat} (hnanos : nanos < 1000000000)
    {rest : List Char} (hrest : EndsDigits rest) (hpoint : rest.head? ≠ some '.') :
    optionalFraction (Instant.fractionText nanos ++ rest) = .ok (nanos, rest) := by
  rw [Instant.fractionText]
  split_ifs with hzero hmilli hmicro
  · rw [List.nil_append, optionalFraction, hzero]
    rintro more rfl
    exact hpoint rfl
  · have hscale : nanos / 1000000 * 10 ^ (9 - 3) = nanos := by omega
    rw [List.cons_append, optionalFraction,
      fraction_padded (by decide) (by decide) (by omega) hrest, hscale]
  · have hscale : nanos / 1000 * 10 ^ (9 - 6) = nanos := by omega
    rw [List.cons_append, optionalFraction,
      fraction_padded (by decide) (by decide) (by omega) hrest, hscale]
  · rw [List.cons_append, optionalFraction,
      fraction_padded (by decide) (by decide) (by omega) hrest, Nat.sub_self, Nat.pow_zero,
      Nat.mul_one]

/-- A fraction is nothing or begins with its point. -/
theorem endsDigits_fractionText (nanos : Nat) {rest : List Char} (hrest : EndsDigits rest) :
    EndsDigits (Instant.fractionText nanos ++ rest) := by
  rw [Instant.fractionText]
  split_ifs
  · exact hrest
  · exact endsDigits_cons rfl
  · exact endsDigits_cons rfl
  · exact endsDigits_cons rfl

end Scan

/-! ## Instants -/

namespace Instant

/-- The second of the minute, 60 in a leap second. -/
def secondText (t : Instant) : Nat :=
  if 1000000000 ≤ t.nanos then t.secondOfDay % 60 + 1 else t.secondOfDay % 60

/-- What an instant is written as. -/
def written (t : Instant) : Written :=
  ⟨t.date.year, t.date.month, t.date.day, t.secondOfDay / 3600, t.secondOfDay / 60 % 60,
    t.secondText, t.nanos % 1000000000, 0⟩

theorem secondOfDay_lt (t : Instant) : t.secondOfDay < 86400 := by
  rw [secondOfDay]
  omega

theorem isValid_date (t : Instant) : t.date.IsValid := by
  obtain ⟨hmin, hmax, -, -⟩ := t.inRange
  rw [minSecond] at hmin
  rw [maxSecond] at hmax
  exact Date.isValid_ofDays (by omega) (by omega)

theorem of?_self (t : Instant) : Instant.of? t.seconds t.nanos = some t := dif_pos t.inRange

/-- Sixty is the second of leap seconds alone. -/
theorem secondText_eq_sixty (t : Instant) : t.secondText = 60 ↔ 1000000000 ≤ t.nanos := by
  have hleap := t.inRange.2.2.2
  rw [secondText, secondOfDay]
  constructor
  · intro h
    by_contra hnot
    rw [if_neg hnot] at h
    omega
  · intro h
    rw [if_pos h]
    have := hleap h
    omega

/-- The clock of an instant shows the seconds of its day. -/
theorem clock_eq (t : Instant) :
    t.secondOfDay / 3600 * 3600 + t.secondOfDay / 60 % 60 * 60 +
      (if t.secondText = 60 then 59 else t.secondText) = t.secondOfDay := by
  by_cases h : 1000000000 ≤ t.nanos
  · have hsecond : t.secondOfDay % 60 = 59 := by
      have := t.inRange.2.2.2 h
      rw [secondOfDay]
      omega
    rw [if_pos (t.secondText_eq_sixty.mpr h)]
    omega
  · rw [if_neg fun h' => h (t.secondText_eq_sixty.mp h'), secondText, if_neg h]
    omega

/-- What an instant is written as means the instant. -/
theorem instant_written (t : Instant) : t.written.instant = .ok t := by
  have hdate : Date.of? t.date.year t.date.month t.date.day = some t.date :=
    if_pos t.isValid_date
  have hnanos : (if t.secondText = 60 then 1000000000 + t.nanos % 1000000000
      else t.nanos % 1000000000) = t.nanos := by
    have hbound := t.inRange.2.2.1
    by_cases h : 1000000000 ≤ t.nanos
    · rw [if_pos (t.secondText_eq_sixty.mpr h)]
      omega
    · rw [if_neg fun h' => h (t.secondText_eq_sixty.mp h')]
      omega
  have hseconds : t.date.toDays * 86400 + (t.secondOfDay : Int) - 0 = t.seconds := by
    rw [date, Date.toDays_ofDays, secondOfDay]
    omega
  have hclock := t.clock_eq
  rw [Written.instant]
  simp only [written, hdate, beq_iff_eq, hclock, hnanos, hseconds, of?_self]
  rfl

/-- **Instants are read back.** The text of an instant denotes the instant. -/
theorem readRelaxed_text (t : Instant) : readRelaxed t.text.toList = .ok t := by
  have hdate := t.isValid_date
  have htext : t.text.toList = yearText t.date.year ++ '-' :: (padded 2 t.date.month ++
      '-' :: (padded 2 t.date.day ++ 'T' :: (padded 2 (t.secondOfDay / 3600) ++
        ':' :: (padded 2 (t.secondOfDay / 60 % 60) ++ ':' :: (padded 2 t.secondText ++
          (fractionText (t.nanos % 1000000000) ++ ['Z'])))))) := by
    rw [text, String.toList_ofList, dateText, timeText, secondText]
    simp only [List.append_assoc, List.cons_append]
  have hsmall : ¬(t.date.year < -2147483648 ∨ 2147483647 < t.date.year) := by
    have hmin := hdate.1
    have hmax := hdate.2.1
    rw [Date.minYear] at hmin
    rw [Date.maxYear] at hmax
    omega
  have hmonth := hdate.month
  have hday := hdate.day
  have hclock := t.secondOfDay_lt
  have hsecond : t.secondText ≤ 60 := by
    rw [secondText]
    split <;> omega
  rw [htext, readRelaxed, signedYear_yearText _ (endsDigits_cons rfl)]
  simp only [bind, Except.bind]
  rw [if_neg hsmall]
  simp only [literal_skipBlanks (show isBlank '-' = false from rfl)]
  rw [bounded_padded hmonth.1 hmonth.2 (by omega) (endsDigits_cons rfl)]
  simp only [literal_skipBlanks (show isBlank '-' = false from rfl)]
  rw [bounded_padded hday.1 hday.2 (by omega) (endsDigits_cons rfl)]
  simp only [dateMark, BEq.rfl, Bool.true_or, if_true]
  rw [bounded_padded (Nat.zero_le _) (by omega) (by omega) (endsDigits_cons rfl)]
  simp only [literal_skipBlanks (show isBlank ':' = false from rfl)]
  rw [bounded_padded (Nat.zero_le _) (by omega) (by omega) (endsDigits_cons rfl)]
  simp only [literal_skipBlanks (show isBlank ':' = false from rfl)]
  rw [bounded_padded (Nat.zero_le _) (by omega) (by omega)
    (endsDigits_fractionText _ (endsDigits_cons rfl))]
  simp only []
  rw [optionalFraction_fractionText (by omega) (endsDigits_cons rfl) (by decide)]
  exact t.instant_written

end Instant

end Intake.Time
