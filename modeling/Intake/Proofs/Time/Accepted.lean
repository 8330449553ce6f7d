import Intake.Proofs.Text.Registers
import Intake.Proofs.Time.Epochs
import Mathlib.Data.List.TakeWhile

/-!
# Epoch seconds that are accepted

Epoch seconds are digits, and where a point follows them the digits of a fraction, if any. A text of
this form is accepted if its whole seconds are not beyond the last instant, whatever the number of
its digits; every other text is refused. Reading the two parts into registers of 63 and 32 bits
comes to the same, so that no number of digits leads to a number that was cut.
-/

namespace Intake.Time

open Text.Decimal

variable {cs whole fraction : List Char}

/-! ## Whole seconds and fraction -/

/-- What stands before the first point. -/
def wholePart (cs : List Char) : List Char := cs.takeWhile (· ≠ '.')

/-- What stands after the first point. -/
def fractionPart (cs : List Char) : List Char := (cs.drop (wholePart cs).length).drop 1

/-- The text has digits for the whole seconds, at least one, and digits for their fraction, which
follow a point; without a point there is no fraction. -/
structure EpochForm (cs whole fraction : List Char) : Prop where
  text : cs = whole ∧ fraction = [] ∨ cs = whole ++ '.' :: fraction
  ne_nil : whole ≠ []
  whole_digits : ∀ c ∈ whole, c.isDigit = true
  fraction_digits : ∀ c ∈ fraction, c.isDigit = true

theorem ne_point_of_isDigit {c : Char} (h : c.isDigit = true) : c ≠ '.' := by
  rintro rfl
  cases h

theorem ne_point_of_mem_wholePart {c : Char} (h : c ∈ wholePart cs) : c ≠ '.' := by
  have hkept := List.mem_takeWhile_imp h
  exact of_decide_eq_true hkept

/-- A text is its two parts with the point between them, if it has a point. -/
theorem parts_eq (cs : List Char) : cs = wholePart cs ∧ fractionPart cs = [] ∨
    cs = wholePart cs ++ '.' :: fractionPart cs := by
  have hsplit : wholePart cs ++ cs.dropWhile (· ≠ '.') = cs := List.takeWhile_append_dropWhile
  have hdrop : cs.drop (wholePart cs).length = cs.dropWhile (· ≠ '.') := by
    calc cs.drop (wholePart cs).length
        = (wholePart cs ++ cs.dropWhile (· ≠ '.')).drop (wholePart cs).length := by rw [hsplit]
      _ = cs.dropWhile (· ≠ '.') := List.drop_left
  unfold fractionPart
  rw [hdrop]
  cases hrest : cs.dropWhile (· ≠ '.') with
  | nil =>
      rw [hrest, List.append_nil] at hsplit
      exact Or.inl ⟨hsplit.symm, rfl⟩
  | cons c rest =>
      have hc : c = '.' := by
        have hstop := List.head?_dropWhile_not (· ≠ '.') cs
        rw [hrest] at hstop
        simpa using hstop
      rw [hrest, hc] at hsplit
      exact Or.inr hsplit.symm

/-- The form determines both parts. -/
theorem epochForm_iff : EpochForm cs whole fraction ↔
    (whole = wholePart cs ∧ fraction = fractionPart cs) ∧ wholePart cs ≠ [] ∧
      (∀ c ∈ wholePart cs, c.isDigit = true) ∧ ∀ c ∈ fractionPart cs, c.isDigit = true := by
  constructor
  · rintro ⟨htext, hne, hwhole, hfraction⟩
    have hparts : whole = wholePart cs ∧ fraction = fractionPart cs := by
      unfold fractionPart wholePart
      rcases htext with ⟨rfl, rfl⟩ | rfl
      · have hall : cs.takeWhile (· ≠ '.') = cs :=
          List.takeWhile_eq_self_iff.mpr fun c hc =>
            decide_eq_true (ne_point_of_isDigit (hwhole c hc))
        rw [hall, List.drop_length]
        exact ⟨rfl, rfl⟩
      · rw [takeWhile_point hwhole, List.drop_left]
        exact ⟨rfl, rfl⟩
    refine ⟨hparts, ?_⟩
    rw [← hparts.1, ← hparts.2]
    exact ⟨hne, hwhole, hfraction⟩
  · rintro ⟨⟨rfl, rfl⟩, hne, hwhole, hfraction⟩
    exact ⟨parts_eq cs, hne, hwhole, hfraction⟩

/-- A text has the form exactly if it begins with neither its end nor a point, has nothing but
digits and points, and has one point at most. -/
theorem exists_epochForm_iff : (∃ whole fraction, EpochForm cs whole fraction) ↔
    (cs ≠ [] ∧ cs.head? ≠ some '.') ∧ (∀ c ∈ cs, c = '.' ∨ c.isDigit = true) ∧
      cs.count '.' ≤ 1 := by
  have hnone {ds : List Char} (hds : ∀ c ∈ ds, c.isDigit = true) : ds.count '.' = 0 :=
    List.count_eq_zero.mpr fun hmem => ne_point_of_isDigit (hds _ hmem) rfl
  constructor
  · rintro ⟨whole, fraction, htext, hne, hwhole, hfraction⟩
    obtain ⟨d, ds, rfl⟩ := List.exists_cons_of_ne_nil hne
    have hd : d ≠ '.' := ne_point_of_isDigit (hwhole d List.mem_cons_self)
    rcases htext with ⟨rfl, rfl⟩ | rfl
    · refine ⟨⟨List.cons_ne_nil _ _, ?_⟩, fun c hc => Or.inr (hwhole c hc), ?_⟩
      · simpa using hd
      · rw [hnone hwhole]
        exact Nat.zero_le 1
    · refine ⟨⟨List.cons_ne_nil _ _, ?_⟩, fun c hc => ?_, ?_⟩
      · simpa using hd
      · rcases List.mem_append.mp hc with hc | hc
        · exact Or.inr (hwhole c hc)
        · rcases List.mem_cons.mp hc with rfl | hc
          · exact Or.inl rfl
          · exact Or.inr (hfraction c hc)
      · rw [List.count_append, List.count_cons_self, hnone hwhole, hnone hfraction]
  · rintro ⟨⟨hne, hhead⟩, hchars, hcount⟩
    refine ⟨_, _, epochForm_iff.mpr ⟨⟨rfl, rfl⟩, ?_, ?_, ?_⟩⟩
    · obtain ⟨d, ds, rfl⟩ := List.exists_cons_of_ne_nil hne
      have hd : d ≠ '.' := by simpa using hhead
      unfold wholePart
      rw [List.takeWhile_cons_of_pos (by simpa using hd)]
      exact List.cons_ne_nil _ _
    · intro c hc
      have hmem : c ∈ cs := (List.takeWhile_prefix _).subset hc
      exact (hchars c hmem).resolve_left (ne_point_of_mem_wholePart hc)
    · -- a point in the fraction would be a second one
      intro c hc
      rcases parts_eq cs with ⟨-, hnil⟩ | hsplit
      · rw [hnil] at hc
        cases hc
      · have hmem : c ∈ cs := by
          rw [hsplit]
          exact List.mem_append_right _ (List.mem_cons_of_mem _ hc)
        refine (hchars c hmem).resolve_left ?_
        rintro rfl
        have hsecond : 0 < (fractionPart cs).count '.' := List.count_pos_iff.mpr hc
        rw [hsplit, List.count_append, List.count_cons_self] at hcount
        omega

/-! ## Instants -/

/-- The nanoseconds of a fraction: nine digits count. -/
def nanosOf (fraction : List Char) : Nat := value ((fraction.take 9).rightpad 9 '0')

theorem nanosOf_eq (fraction : List Char) :
    nanosOf fraction = value (fraction.take 9) * 10 ^ (9 - fraction.length) := by
  unfold nanosOf
  rw [value_rightpad, List.length_take]
  congr 2
  omega

theorem nanosOf_lt (h : ∀ c ∈ fraction, c.isDigit = true) : nanosOf fraction < 1000000000 := by
  have hdigits : ∀ c ∈ (fraction.take 9).rightpad 9 '0', c.isDigit = true := by
    intro c hc
    unfold List.rightpad at hc
    rcases List.mem_append.mp hc with hc | hc
    · exact h c (List.mem_of_mem_take hc)
    · rw [List.eq_of_mem_replicate hc]
      rfl
  have hnine : ((fraction.take 9).rightpad 9 '0').length = 9 := by
    simp only [List.rightpad, List.length_append, List.length_replicate, List.length_take]
    omega
  have hlt := value_lt hdigits
  rw [hnine] at hlt
  exact hlt

/-- Outside of leap seconds a number of seconds from the epoch on is that of an instant exactly up
to the last one. -/
theorem Instant.of?_eq_some {n nanos : Nat} (hnanos : nanos < 1000000000) {t : Instant} :
    Instant.of? n nanos = some t ↔
      n ≤ 8210266876799 ∧ t.seconds = n ∧ t.nanos = nanos := by
  have hrange : InRange n nanos ↔ n ≤ 8210266876799 := by
    unfold InRange minSecond maxSecond
    omega
  unfold Instant.of?
  split
  · next h =>
      rw [Option.some.injEq, and_iff_right (hrange.mp h)]
      constructor
      · rintro rfl
        exact ⟨rfl, rfl⟩
      · obtain ⟨seconds, nanos', _⟩ := t
        rintro ⟨rfl, rfl⟩
        rfl
  · next h => simp [mt hrange.mpr h]

theorem readEpochSeconds_eq (cs : List Char) : readEpochSeconds cs =
    if (fractionPart cs).all Char.isDigit then
      (read (wholePart cs)).bind fun n => Instant.of? n (nanosOf (fractionPart cs))
    else none := rfl

/-- A text of the form is read as its whole seconds and the nanoseconds of its fraction. -/
theorem EpochForm.readEpochSeconds (h : EpochForm cs whole fraction) :
    Time.readEpochSeconds cs = Instant.of? (value whole) (nanosOf fraction) := by
  obtain ⟨⟨rfl, rfl⟩, hne, hwhole, hfraction⟩ := epochForm_iff.mp h
  have hread : read (wholePart cs) = some (value (wholePart cs)) := by
    rw [Text.Decimal.read, if_pos]
    simpa [hne] using hwhole
  rw [readEpochSeconds_eq, if_pos (List.all_eq_true.mpr hfraction), hread, Option.bind_some]

/-- Only texts of the form are read. -/
theorem epochForm_of_readEpochSeconds {t : Instant} (h : readEpochSeconds cs = some t) :
    EpochForm cs (wholePart cs) (fractionPart cs) := by
  rw [readEpochSeconds_eq] at h
  split at h
  · next hfraction =>
      obtain ⟨n, hread, -⟩ := Option.bind_eq_some_iff.mp h
      unfold Text.Decimal.read at hread
      split at hread
      · next hwhole =>
          rw [Bool.and_eq_true, List.all_eq_true] at hwhole
          refine epochForm_iff.mpr ⟨⟨rfl, rfl⟩, ?_, hwhole.2, List.all_eq_true.mp hfraction⟩
          simpa using hwhole.1
      · cases hread
  · cases h

theorem readEpochSeconds_eq_some {t : Instant} : readEpochSeconds cs = some t ↔
    ∃ whole fraction, EpochForm cs whole fraction ∧ value whole ≤ 8210266876799 ∧
      t.seconds = value whole ∧ t.nanos = nanosOf fraction := by
  constructor
  · intro h
    have hform := epochForm_of_readEpochSeconds h
    rw [hform.readEpochSeconds, Instant.of?_eq_some (nanosOf_lt hform.fraction_digits)] at h
    exact ⟨_, _, hform, h⟩
  · rintro ⟨whole, fraction, hform, h⟩
    rw [hform.readEpochSeconds]
    exact (Instant.of?_eq_some (nanosOf_lt hform.fraction_digits)).mpr h

theorem exists_readEpochSeconds : (∃ t, readEpochSeconds cs = some t) ↔
    ∃ whole fraction, EpochForm cs whole fraction ∧ value whole ≤ 8210266876799 := by
  constructor
  · rintro ⟨t, h⟩
    obtain ⟨whole, fraction, hform, hlast, -⟩ := readEpochSeconds_eq_some.mp h
    exact ⟨whole, fraction, hform, hlast⟩
  · rintro ⟨whole, fraction, hform, hlast⟩
    have hnanos := nanosOf_lt hform.fraction_digits
    have hrange : InRange (value whole) (nanosOf fraction) := by
      unfold InRange minSecond maxSecond
      omega
    exact ⟨⟨_, _, hrange⟩, readEpochSeconds_eq_some.mpr ⟨_, _, hform, hlast, rfl, rfl⟩⟩

/-! ## Registers -/

/-- The nanoseconds of a fraction, read into a register of 32 bits. -/
def readNanos (fraction : List Char) : Option Nat :=
  if fraction = [] then some 0
  else readRegister 4294967296 ((fraction ++ List.replicate 9 '0').take 9)

/-- Epoch seconds read with registers: the whole seconds into one of 63 bits, and nine
digits of the fraction into one of 32 bits. -/
def readEpochRegisters (cs : List Char) : Option Instant :=
  if wholePart cs ≠ [] ∧ (wholePart cs).all Char.isDigit ∧ (fractionPart cs).all Char.isDigit then
    (readRegister 9223372036854775808 (wholePart cs)).bind fun seconds =>
      (readNanos (fractionPart cs)).bind fun nanos => Instant.of? seconds nanos
  else none

theorem take_append_zeros (fraction : List Char) :
    (fraction ++ List.replicate 9 '0').take 9 = (fraction.take 9).rightpad 9 '0' := by
  rw [List.take_append, List.take_replicate, List.rightpad, List.length_take]
  congr 2
  omega

theorem readNanos_eq (h : ∀ c ∈ fraction, c.isDigit = true) :
    readNanos fraction = some (nanosOf fraction) := by
  unfold readNanos
  split
  · next hnil =>
      rw [hnil]
      rfl
  · have hlt := nanosOf_lt h
    rw [readRegister_eq (by decide), take_append_zeros, if_pos]
    · rfl
    · unfold nanosOf at hlt
      omega

/-- The registers are wide enough: what does not fit into them is no instant either. -/
theorem readEpochRegisters_eq (cs : List Char) : readEpochRegisters cs = readEpochSeconds cs := by
  unfold readEpochRegisters
  split
  · next h =>
      obtain ⟨hne, hwhole, hfraction⟩ := h
      rw [List.all_eq_true] at hwhole hfraction
      have hform : EpochForm cs (wholePart cs) (fractionPart cs) :=
        epochForm_iff.mpr ⟨⟨rfl, rfl⟩, hne, hwhole, hfraction⟩
      rw [hform.readEpochSeconds, readNanos_eq hfraction, readRegister_eq (by decide)]
      by_cases hfits : value (wholePart cs) < 9223372036854775808
      · rw [if_pos hfits]
        rfl
      · rw [if_neg hfits, Option.bind_none, eq_comm, Option.eq_none_iff_forall_ne_some]
        intro t ht
        obtain ⟨hlast, -⟩ := (Instant.of?_eq_some (nanosOf_lt hfraction)).mp ht
        omega
  · next h =>
      rw [eq_comm, Option.eq_none_iff_forall_ne_some]
      intro t ht
      obtain ⟨-, hne, hwhole, hfraction⟩ := epochForm_of_readEpochSeconds ht
      exact h ⟨hne, List.all_eq_true.mpr hwhole, List.all_eq_true.mpr hfraction⟩

/-- A text of the form is either read or beyond the last second. -/
theorem exists_within_iff : (∃ whole fraction, EpochForm cs whole fraction ∧
      value whole ≤ 8210266876799) ↔
    (∃ whole fraction, EpochForm cs whole fraction) ∧
      ¬∃ whole fraction, EpochForm cs whole fraction ∧ 8210266876799 < value whole := by
  constructor
  · rintro ⟨whole, fraction, hform, hle⟩
    refine ⟨⟨whole, fraction, hform⟩, ?_⟩
    rintro ⟨whole', fraction', hform', hlt⟩
    rw [(epochForm_iff.mp hform).1.1] at hle
    rw [(epochForm_iff.mp hform').1.1] at hlt
    omega
  · rintro ⟨⟨whole, fraction, hform⟩, hnot⟩
    refine ⟨whole, fraction, hform, ?_⟩
    by_contra hlt
    exact hnot ⟨whole, fraction, hform, by omega⟩

/-- **Epoch seconds that are accepted.** A text is read as an instant exactly if it is one or more
digits, or these, a point and any digits, and if the whole digits stand for at most the last second
of the calendar. The instant has that many seconds, and as nanoseconds the first nine digits of the
fraction, filled up with zeros. A text is refused exactly if it has no whole digits, has a character
that is neither a digit nor a point, has a second point, or stands for a later second. Registers of
fixed width come to the same. -/
theorem epoch_seconds_accepted (s : String) :
    (∀ t, readEpochSeconds s.toList = some t ↔
      ∃ whole fraction, EpochForm s.toList whole fraction ∧ value whole ≤ 8210266876799 ∧
        t.seconds = value whole ∧
        t.nanos = value (fraction.take 9) * 10 ^ (9 - fraction.length)) ∧
    ((∃ t, readEpochSeconds s.toList = some t) ↔
      ∃ whole fraction, EpochForm s.toList whole fraction ∧ value whole ≤ 8210266876799) ∧
    (readEpochSeconds s.toList = none ↔
      (s.toList = [] ∨ s.toList.head? = some '.') ∨
      (∃ c ∈ s.toList, c ≠ '.' ∧ c.isDigit = false) ∨ 2 ≤ s.toList.count '.' ∨
      ∃ whole fraction, EpochForm s.toList whole fraction ∧ 8210266876799 < value whole) ∧
    readEpochRegisters s.toList = readEpochSeconds s.toList := by
  generalize s.toList = cs
  refine ⟨fun t => ?_, exists_readEpochSeconds, ?_, readEpochRegisters_eq cs⟩
  · simp only [← nanosOf_eq]
    exact readEpochSeconds_eq_some
  · rw [Option.eq_none_iff_forall_ne_some, ← not_exists, exists_readEpochSeconds,
      exists_within_iff, exists_epochForm_iff]
    simp only [not_and_or, not_not, not_forall, not_or, not_le, or_assoc, ne_eq, exists_prop,
      Bool.not_eq_true]
    exact Iff.rfl

/-- The last second of the calendar, and the one after it. -/
example : (readEpochSeconds "8210266876799.5".toList).isSome = true ∧
    readEpochSeconds "8210266876800".toList = none := by decide +kernel

end Intake.Time
