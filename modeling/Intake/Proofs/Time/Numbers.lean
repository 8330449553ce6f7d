import Intake.Proofs.Time.Epochs
import Mathlib.Data.Rat.Floor
import Mathlib.Tactic.Linarith
import Mathlib.Tactic.Ring

/-!
# Epoch seconds as numbers

The text of an instant is a decimal numeral. From the epoch on, and outside of leap seconds, it
stands for the seconds since the epoch, rounded down to the microsecond. Before the epoch the
fraction counts upwards in the instant and downwards in the numeral; and in a leap second the
microseconds have seven digits, so that each of them counts a tenth of what it should.
-/

namespace Intake.Time.Instant

open Text.Decimal

/-- Seconds since the epoch, with their fraction. -/
def number (t : Instant) : ℚ := t.seconds + t.nanos / 1000000000

/-- Rounding down to the microsecond is what it is for numbers. -/
theorem number_toMicros (t : Instant) : t.toMicros.number = ⌊t.number * 1000000⌋ / 1000000 := by
  have hnumber : t.number * 1000000 =
      ((t.seconds * 1000000000 + t.nanos : Int) : ℚ) / (1000 : Nat) := by
    rw [number]
    push_cast
    ring
  have hfloor : ⌊t.number * 1000000⌋ = t.seconds * 1000000 + (t.nanos / 1000 : Nat) := by
    rw [hnumber, Rat.floor_intCast_div_natCast]
    omega
  rw [hfloor]
  simp only [number, toMicros]
  generalize t.nanos / 1000 = micros
  push_cast
  ring

/-! ## What the text stands for -/

/-- The places after the point. -/
def places (t : Instant) : Nat := if t.nanos < 1000000000 then 6 else 7

theorem length_padded_micros (t : Instant) : (padded 6 (t.nanos / 1000)).length = t.places := by
  rw [places]
  split
  · exact length_padded (by decide) (by omega)
  · have hseven : (digits (t.nanos / 1000)).length ≤ 7 :=
      (Nat.length_toDigits_le_iff (by decide) (by decide)).mpr (by have := t.inRange.2.2.1; omega)
    have hsix : ¬(digits (t.nanos / 1000)).length ≤ 6 :=
      mt (Nat.length_toDigits_le_iff (by decide) (by decide)).mp (by omega)
    rw [padded, List.length_append, List.length_replicate]
    omega

/-- The fraction that stands after the point. -/
def shownFraction (t : Instant) : ℚ := (t.nanos / 1000 : Nat) / 10 ^ t.places

/-- The number that the text of an instant stands for. -/
def shown (t : Instant) : ℚ :=
  if 0 ≤ t.seconds then t.seconds + t.shownFraction else t.seconds - t.shownFraction

theorem unsigned_micros (n : Nat) (t : Instant) :
    unsigned (digits n) (padded 6 (t.nanos / 1000)) = n + t.shownFraction := by
  rw [unsigned, value_digits, value_padded, t.length_padded_micros, shownFraction]

/-- Before the epoch, the whole seconds are written with a sign. -/
theorem epochText_of_neg {t : Instant} (h : t.seconds < 0) :
    t.epochText.toList = '-' :: (digits t.seconds.natAbs ++ '.' :: padded 6 (t.nanos / 1000)) := by
  rw [epochText, String.toList_ofList]
  cases hseconds : t.seconds with
  | ofNat n =>
      rw [hseconds] at h
      exact absurd h (Int.not_lt.mpr (Int.natCast_nonneg n))
  | negSucc n => rfl

theorem readNumber_epochText (t : Instant) : readNumber t.epochText.toList = some t.shown := by
  have hdigits (n : Nat) : ∀ c ∈ digits n, c.isDigit = true := fun c hc => isDigit_of_mem_digits hc
  have hmicros : ∀ c ∈ padded 6 (t.nanos / 1000), c.isDigit = true :=
    fun c hc => isDigit_of_mem_padded hc
  by_cases h : 0 ≤ t.seconds
  · have hwhole : ((t.seconds.toNat : Nat) : ℚ) = t.seconds := by
      exact_mod_cast Int.toNat_of_nonneg h
    rw [epochText_of_nonneg h, readNumber_point (hdigits _) (digits_ne_nil _) hmicros
      (padded_ne_nil 6 _), unsigned_micros, shown, if_pos h, hwhole]
  · have hwhole : ((t.seconds.natAbs : Nat) : ℚ) = -t.seconds := by
      have habs : (t.seconds.natAbs : Int) = -t.seconds := by omega
      rw [← Int.cast_natCast, habs, Int.cast_neg]
    rw [epochText_of_neg (by omega), readNumber_minus (hdigits _) (digits_ne_nil _) hmicros
      (padded_ne_nil 6 _), unsigned_micros, shown, if_neg h, hwhole, neg_add, neg_neg,
      ← sub_eq_add_neg]

/-! ## Numbers that are right -/

theorem shownFraction_nonneg (t : Instant) : 0 ≤ t.shownFraction := by
  rw [shownFraction]
  positivity

theorem shownFraction_lt_one (t : Instant) : t.shownFraction < 1 := by
  have hmicros : t.nanos / 1000 < 10 ^ t.places := by
    have hbound := t.inRange.2.2.1
    rw [places]
    split <;> omega
  rw [shownFraction, div_lt_one (by positivity)]
  exact_mod_cast hmicros

/-- The number is the seconds since the epoch, rounded down to the microsecond, exactly if there are
no microseconds, or from the epoch on and outside of leap seconds. -/
theorem shown_eq_iff (t : Instant) : t.shown = ⌊t.number * 1000000⌋ / 1000000 ↔
    t.nanos < 1000 ∨ 0 ≤ t.seconds ∧ t.nanos < 1000000000 := by
  have hright : t.toMicros.number = t.seconds + ((t.nanos / 1000 : Nat) : ℚ) / 1000000 := by
    rw [number, toMicros]
    push_cast
    ring
  have hzero : ((t.nanos / 1000 : Nat) : ℚ) = 0 ↔ t.nanos < 1000 := by
    rw [Nat.cast_eq_zero]
    omega
  rw [← number_toMicros, hright, shown, shownFraction, places, ← hzero]
  generalize ((t.nanos / 1000 : Nat) : ℚ) = micros
  by_cases hgood : 0 ≤ t.seconds ∧ t.nanos < 1000000000
  · rw [if_pos hgood.1, if_pos hgood.2]
    exact iff_of_true (by norm_num) (Or.inr hgood)
  · rw [or_iff_left hgood]
    split_ifs with hsign hleap hleap
    · exact absurd ⟨hsign, hleap⟩ hgood
    all_goals exact ⟨fun h => by linarith, fun h => by linarith⟩

/-- The numbers of two instants in their order are in order exactly if the instants are in
different seconds, or if their fractions are in order, which before the epoch is the reverse one. -/
theorem shown_le_iff {s t : Instant} (h : s ≤ t) : s.shown ≤ t.shown ↔
    s.seconds < t.seconds ∨
      if 0 ≤ s.seconds then s.shownFraction ≤ t.shownFraction
      else t.shownFraction ≤ s.shownFraction := by
  have hs := s.shownFraction_nonneg
  have hs' := s.shownFraction_lt_one
  have ht := t.shownFraction_nonneg
  have ht' := t.shownFraction_lt_one
  rw [shown, shown]
  rcases h with hlt | ⟨heq, -⟩
  · have hnext : (s.seconds : ℚ) + 1 ≤ t.seconds := by exact_mod_cast hlt
    simp only [hlt, true_or, iff_true]
    split_ifs with hneg hneg'
    · linarith
    · omega
    · linarith
    · linarith
  · simp only [heq, lt_irrefl, false_or]
    split_ifs
    · exact add_le_add_iff_left _
    · exact sub_le_sub_iff_left _

/-- From the epoch on, and up to an instant in no leap second, the numbers are in order. -/
theorem shown_le_of_nonneg {s t : Instant} (h : s ≤ t) (hs : 0 ≤ s.seconds)
    (ht : t.nanos < 1000000000) : s.shown ≤ t.shown := by
  rw [shown_le_iff h, if_pos hs]
  rcases h with hlt | ⟨-, hle⟩
  · exact Or.inl hlt
  · right
    have hmicros : ((s.nanos / 1000 : Nat) : ℚ) ≤ (t.nanos / 1000 : Nat) := by
      exact_mod_cast Nat.div_le_div_right hle
    rw [shownFraction, shownFraction, places, places, if_pos ht, if_pos (by omega)]
    gcongr

end Intake.Time.Instant
