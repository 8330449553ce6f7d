import Intake.Proofs.Text.Numerals
import Intake.Proofs.Time.Texts

/-!
# Epoch seconds are read back

An instant is written as its whole seconds, a point and its microseconds. From the epoch on, and
outside of leap seconds, this is read back as the instant rounded down to the microsecond; and what
has the form of such a text is what the instant that it is read as is written as.
-/

namespace Intake.Time

open Text.Decimal

namespace Instant

/-- The instant rounded down to the microsecond. -/
def toMicros (t : Instant) : Instant where
  seconds := t.seconds
  nanos := t.nanos / 1000 * 1000
  inRange := by
    obtain ⟨hmin, hmax, hnanos, hleap⟩ := t.inRange
    exact ⟨hmin, hmax, by omega, fun h => hleap (by omega)⟩

/-- From the epoch on, the whole seconds are written without a sign. -/
theorem epochText_of_nonneg {t : Instant} (h : 0 ≤ t.seconds) :
    t.epochText.toList = digits t.seconds.toNat ++ '.' :: padded 6 (t.nanos / 1000) := by
  rw [epochText, String.toList_ofList]
  cases hseconds : t.seconds with
  | ofNat n => rfl
  | negSucc n =>
      rw [hseconds] at h
      exact absurd h (Int.negSucc_not_nonneg n).mp

end Instant

/-- What stands before the point are the seconds, and what stands after it their fraction. -/
theorem readEpochSeconds_point {whole fraction : List Char}
    (hwhole : ∀ c ∈ whole, c.isDigit = true) (hne : whole ≠ [])
    (hfraction : ∀ c ∈ fraction, c.isDigit = true) :
    readEpochSeconds (whole ++ '.' :: fraction) =
      Instant.of? (value whole) (value ((fraction.take 9).rightpad 9 '0')) := by
  have hread : read whole = some (value whole) := by
    rw [Text.Decimal.read, if_pos]
    simpa [hne] using hwhole
  simp only [readEpochSeconds, takeWhile_point hwhole, List.drop_left, List.drop_one,
    List.tail_cons, hread, Option.bind_some]
  exact if_pos (List.all_eq_true.mpr hfraction)

/-- Six digits after the point are microseconds. -/
theorem readEpochSeconds_micros {whole fraction : List Char}
    (hwhole : ∀ c ∈ whole, c.isDigit = true) (hne : whole ≠ [])
    (hfraction : ∀ c ∈ fraction, c.isDigit = true) (hsix : fraction.length = 6) :
    readEpochSeconds (whole ++ '.' :: fraction) =
      Instant.of? (value whole) (value fraction * 1000) := by
  rw [readEpochSeconds_point hwhole hne hfraction, List.take_of_length_le (by omega),
    value_rightpad, hsix]
  rfl

/-- **Epoch seconds are read back.** The text of an instant from the epoch on that is in no leap
second is read as the instant rounded down to the microsecond. A text of whole seconds without a
superfluous zero in front, not beyond the last instant, a point and six digits is read, and it is
the text of the instant that it is read as. -/
theorem epoch_seconds_read_back :
    (∀ t : Instant, 0 ≤ t.seconds → t.nanos < 1000000000 →
      readEpochSeconds t.epochText.toList = some t.toMicros) ∧
    ∀ (s : String) (whole fraction : List Char), s.toList = whole ++ '.' :: fraction →
      Numeral whole → (value whole : Int) ≤ maxSecond →
      fraction.length = 6 → (∀ c ∈ fraction, c.isDigit = true) →
      ∃ t, readEpochSeconds s.toList = some t ∧ t.seconds = value whole ∧
        t.nanos = value fraction * 1000 ∧ t.epochText = s := by
  constructor
  · intro t hseconds hnanos
    have hsix : (padded 6 (t.nanos / 1000)).length = 6 :=
      length_padded (by decide) (by omega)
    rw [Instant.epochText_of_nonneg hseconds,
      readEpochSeconds_micros (fun c hc => isDigit_of_mem_digits hc) (digits_ne_nil _)
        (fun c hc => isDigit_of_mem_padded hc) hsix,
      value_digits, value_padded, Int.toNat_of_nonneg hseconds]
    exact t.toMicros.of?_self
  · intro s whole fraction hs hwhole hlast hsix hfraction
    have hmicros : value fraction < 10 ^ 6 := hsix ▸ value_lt hfraction
    have hrange : InRange (value whole) (value fraction * 1000) := by
      refine ⟨by rw [minSecond]; omega, hlast, by omega, fun h => absurd h (by omega)⟩
    refine ⟨⟨value whole, value fraction * 1000, hrange⟩, ?_, rfl, rfl, ?_⟩
    · rw [hs, readEpochSeconds_micros hwhole.digits hwhole.ne_nil hfraction hsix]
      exact dif_pos hrange
    · have hpadded : padded 6 (value fraction) = fraction := by
        rw [← hsix]
        exact padded_value hfraction (List.ne_nil_of_length_pos (by omega))
      rw [← String.toList_inj, Instant.epochText_of_nonneg (Int.natCast_nonneg _), hs,
        Int.toNat_natCast, hwhole.digits_value, Nat.mul_div_cancel _ (by decide), hpadded]

/-- An instant with more than microseconds. -/
def fine : Instant := ⟨1512085950, 216789, by decide⟩

theorem epoch_seconds_read_back_fine :
    fine.epochText = "1512085950.000216" ∧
      readEpochSeconds fine.epochText.toList = some ⟨1512085950, 216000, by decide⟩ ∧
      ∃ t, readEpochSeconds "0.000700".toList = some t ∧ t.epochText = "0.000700" := by
  have hzero : Numeral ['0'] := ⟨List.forall_mem_singleton.mpr (by decide), by decide,
    fun rest h => (List.cons.inj h).2.symm⟩
  obtain ⟨t, hread, -, -, htext⟩ := epoch_seconds_read_back.2 "0.000700" ['0'] "000700".toList
    (by decide) hzero (by decide) (by decide) (List.all_eq_true.mp (by decide))
  exact ⟨by decide +kernel, epoch_seconds_read_back.1 fine (by decide) (by decide), t, hread, htext⟩

end Intake.Time
