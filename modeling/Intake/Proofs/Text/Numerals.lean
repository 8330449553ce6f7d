import Intake.Proofs.Text.Digits
import Mathlib.Data.List.Induction
import Mathlib.Data.Rat.Defs

/-!
# Numerals

Digits are told by their number and their value: filled up with zeros to as many places, the value
is written with the same digits again. Without a superfluous zero in front the value alone is
enough. A decimal numeral has a point and a fraction, and may have a minus sign in front; the digits
of the fraction count by their places after the point.
-/

namespace Intake.Text.Decimal

/-! ## Values of digits -/

theorem value_concat (ds : List Char) (c : Char) :
    value (ds ++ [c]) = 10 * value ds + (c.toNat - 48) := by
  rw [value, Nat.ofDigitChars_append]
  rfl

theorem value_lt {ds : List Char} (h : ∀ c ∈ ds, c.isDigit = true) :
    value ds < 10 ^ ds.length := by
  induction ds using List.reverseRecOn with
  | nil => decide
  | append_singleton ds c ih =>
      have hlead := ih fun d hd => h d (List.mem_append_left _ hd)
      obtain ⟨hlow, hhigh⟩ := isDigit_iff.mp (h c (by simp))
      rw [value_concat, List.length_append, List.length_singleton, Nat.pow_succ]
      omega

/-- As many digits with one value are the same. -/
theorem eq_of_value_eq {ds es : List Char} (hds : ∀ c ∈ ds, c.isDigit = true)
    (hes : ∀ c ∈ es, c.isDigit = true) (hlength : ds.length = es.length)
    (hvalue : value ds = value es) : ds = es := by
  induction ds using List.reverseRecOn generalizing es with
  | nil => exact (List.length_eq_zero_iff.mp hlength.symm).symm
  | append_singleton ds c ih =>
      rcases List.eq_nil_or_concat es with rfl | ⟨es, d, rfl⟩
      · simp at hlength
      · rw [List.concat_eq_append] at hes hlength hvalue ⊢
        obtain ⟨hlow, hhigh⟩ := isDigit_iff.mp (hds c (by simp))
        obtain ⟨hlow', hhigh'⟩ := isDigit_iff.mp (hes d (by simp))
        rw [value_concat, value_concat] at hvalue
        have hlast : c = d := Char.toNat_inj.mp (by omega)
        have hlead : ds = es := by
          refine ih (fun e he => hds e (List.mem_append_left _ he))
            (fun e he => hes e (List.mem_append_left _ he)) ?_ (by omega)
          simpa using hlength
        rw [hlead, hlast]

/-- Digits are written again where their value is filled up to their number. -/
theorem padded_value {ds : List Char} (hds : ∀ c ∈ ds, c.isDigit = true) (hne : ds ≠ []) :
    padded ds.length (value ds) = ds := by
  refine eq_of_value_eq (fun c hc => isDigit_of_mem_padded hc) hds ?_ (value_padded _ _)
  exact length_padded (List.length_pos_iff.mpr hne) (value_lt hds)

/-- Digits of a whole number, without a superfluous zero in front of them. -/
structure Numeral (ds : List Char) : Prop where
  digits : ∀ c ∈ ds, c.isDigit = true
  ne_nil : ds ≠ []
  first : ∀ rest, ds = '0' :: rest → rest = []

/-- A numeral is what its value is written as. -/
theorem Numeral.digits_value {ds : List Char} (h : Numeral ds) :
    Decimal.digits (value ds) = ds := by
  have hpadded := padded_value h.digits h.ne_nil
  rw [padded] at hpadded
  cases hzeros : ds.length - (Decimal.digits (value ds)).length with
  | zero => rwa [hzeros, List.replicate_zero, List.nil_append] at hpadded
  | succ k =>
      rw [hzeros, List.replicate_succ, List.cons_append] at hpadded
      have hnothing := h.first _ hpadded.symm
      exact absurd (List.append_eq_nil_iff.mp hnothing).2 (digits_ne_nil _)

/-! ## Decimal numerals -/

/-- The number of whole digits and digits after the point. -/
def unsigned (whole fraction : List Char) : ℚ :=
  value whole + value fraction / 10 ^ fraction.length

/-- Reads digits, a point and digits. -/
def readUnsigned (cs : List Char) : Option ℚ :=
  let whole := cs.takeWhile (· ≠ '.')
  let fraction := (cs.drop whole.length).drop 1
  if whole ≠ [] ∧ fraction ≠ [] ∧ (whole ++ fraction).all Char.isDigit then
    some (unsigned whole fraction)
  else none

/-- Reads a decimal numeral, which may have a minus sign in front. -/
def readNumber : List Char → Option ℚ
  | '-' :: cs => (readUnsigned cs).map (-·)
  | cs => readUnsigned cs

/-- What stands before the point is taken up to it. -/
theorem takeWhile_point {whole : List Char} (h : ∀ c ∈ whole, c.isDigit = true)
    (rest : List Char) : (whole ++ '.' :: rest).takeWhile (· ≠ '.') = whole := by
  have hwhole : ∀ c ∈ whole, decide (c ≠ '.') = true := by
    intro c hc
    refine decide_eq_true fun heq => ?_
    have hdigit := h c hc
    rw [heq] at hdigit
    cases hdigit
  rw [List.takeWhile_append_of_pos hwhole, List.takeWhile_cons_of_neg (by simp), List.append_nil]

section

variable {whole fraction : List Char} (hwhole : ∀ c ∈ whole, c.isDigit = true) (hne : whole ≠ [])
  (hfraction : ∀ c ∈ fraction, c.isDigit = true) (hne' : fraction ≠ [])

include hwhole hne hfraction hne'

theorem readUnsigned_point :
    readUnsigned (whole ++ '.' :: fraction) = some (unsigned whole fraction) := by
  have hall : (whole ++ fraction).all Char.isDigit = true := by
    rw [List.all_append, List.all_eq_true.mpr hwhole, List.all_eq_true.mpr hfraction]
    rfl
  simp only [readUnsigned, takeWhile_point hwhole, List.drop_left, List.drop_one, List.tail_cons]
  exact if_pos ⟨hne, hne', hall⟩

theorem readNumber_point :
    readNumber (whole ++ '.' :: fraction) = some (unsigned whole fraction) := by
  rw [← readUnsigned_point hwhole hne hfraction hne']
  cases whole with
  | nil => exact absurd rfl hne
  | cons c rest =>
      rw [List.cons_append, readNumber]
      rintro more heq
      have hc : c.isDigit = true := hwhole c List.mem_cons_self
      rw [(List.cons.inj heq).1] at hc
      cases hc

theorem readNumber_minus :
    readNumber ('-' :: (whole ++ '.' :: fraction)) = some (-unsigned whole fraction) := by
  rw [readNumber, readUnsigned_point hwhole hne hfraction hne', Option.map_some]

end

end Intake.Text.Decimal
