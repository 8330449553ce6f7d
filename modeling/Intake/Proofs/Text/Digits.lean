import Intake.Text.Decimal
import Mathlib.Algebra.Group.Nat.Defs

/-!
# Digits in a text

A number is written without superfluous zeros. In front of a text that does not begin with a
digit, its digits are exactly the digits that a reader finds.
-/

namespace Intake.Text.Decimal

theorem isDigit_iff {c : Char} : c.isDigit = true ↔ 48 ≤ c.toNat ∧ c.toNat ≤ 57 := by
  simp only [Char.isDigit, Bool.and_eq_true, decide_eq_true_eq, ge_iff_le, UInt32.le_iff_toNat_le]
  exact Iff.rfl

/-- A number other than zero does not begin with a zero. -/
theorem head?_digits {n : Nat} (hn : n ≠ 0) : (digits n).head? ≠ some '0' := by
  induction n using Nat.strongRecOn with
  | ind n ih =>
      rw [digits]
      by_cases hsmall : n < 10
      · rw [Nat.toDigits_of_lt_base hsmall, List.head?_cons, ne_eq, Option.some.injEq,
          Nat.digitChar_eq_zero]
        exact hn
      · have htens := ih (n / 10) (by omega) (by omega)
        rw [Nat.toDigits_of_base_le (by decide) (by omega), ← digits]
        cases hds : digits (n / 10) with
        | nil => exact absurd hds (digits_ne_nil (n / 10))
        | cons c rest => rwa [hds] at htens

/-- No number is written with a zero in front of further digits. -/
theorem digits_ne_zero_cons (n : Nat) (c : Char) (ds : List Char) :
    digits n ≠ '0' :: c :: ds := by
  intro h
  by_cases hn : n = 0
  · rw [hn, digits, Nat.toDigits_zero] at h
    cases h
  · exact head?_digits hn (by rw [h, List.head?_cons])

/-- Whether a text does not begin with a digit. -/
def EndsDigits (cs : List Char) : Prop := ∀ c ∈ cs.head?, c.isDigit = false

theorem endsDigits_nil : EndsDigits [] := fun _ h => nomatch h

theorem endsDigits_cons {c : Char} {cs : List Char} (h : c.isDigit = false) :
    EndsDigits (c :: cs) := by
  intro d hd
  rw [List.head?_cons, Option.mem_some_iff] at hd
  exact hd ▸ h

/-- In front of a text that does not begin with a digit, all digits are taken. -/
theorem EndsDigits.takeWhile {ds cs : List Char} (h : EndsDigits cs)
    (hds : ∀ c ∈ ds, c.isDigit = true) : (ds ++ cs).takeWhile Char.isDigit = ds := by
  rw [List.takeWhile_append_of_pos hds]
  cases cs with
  | nil => exact List.append_nil ds
  | cons c rest =>
      rw [List.takeWhile_cons_of_neg (by simp [h c rfl]), List.append_nil]

theorem EndsDigits.dropWhile {ds cs : List Char} (h : EndsDigits cs)
    (hds : ∀ c ∈ ds, c.isDigit = true) : (ds ++ cs).dropWhile Char.isDigit = cs := by
  rw [List.dropWhile_append_of_pos hds]
  cases cs with
  | nil => rfl
  | cons c rest => rw [List.dropWhile_cons_of_neg (by simp [h c rfl])]

/-! ## Digits filled up with zeros -/

theorem isDigit_of_mem_padded {width n : Nat} {c : Char} (h : c ∈ padded width n) :
    c.isDigit = true := by
  rw [padded, List.mem_append] at h
  rcases h with h | h
  · rw [List.eq_of_mem_replicate h]
    rfl
  · exact isDigit_of_mem_digits h

theorem padded_ne_nil (width n : Nat) : padded width n ≠ [] := by
  rw [padded]
  exact List.append_ne_nil_of_right_ne_nil _ (digits_ne_nil n)

theorem length_padded {width n : Nat} (hwidth : 0 < width) (h : n < 10 ^ width) :
    (padded width n).length = width := by
  have hlength : (digits n).length ≤ width :=
    (Nat.length_toDigits_le_iff (by decide) hwidth).mpr h
  rw [padded, List.length_append, List.length_replicate]
  omega

theorem value_rightpad (width : Nat) (ds : List Char) :
    value (ds.rightpad width '0') = value ds * 10 ^ (width - ds.length) := by
  rw [List.rightpad, value, Nat.ofDigitChars_append, Nat.ofDigitChars_replicate_zero,
    Nat.mul_comm]
  rfl

/-! ## Digits at the end of a text -/

/-- A number whose digits end in those of another one is not smaller. -/
theorem le_of_digits_eq_append {m n : Nat} {lead : List Char} (h : digits n = lead ++ digits m) :
    m ≤ n := by
  have hvalue := congrArg value h
  rw [value_digits, value, Nat.ofDigitChars_append, Nat.ofDigitChars_eq_ofDigitChars_zero,
    ← value, ← value, value_digits] at hvalue
  omega

/-- Two numbers, the smaller one first, end one text exactly where the digits that the greater one
has more stand before the smaller one. -/
theorem append_digits_eq_iff {m n : Nat} (hmn : m < n) {as bs : List Char} :
    as ++ digits m = bs ++ digits n ↔ ∃ lead, digits n = lead ++ digits m ∧ as = bs ++ lead := by
  rw [List.append_eq_append_iff]
  constructor
  · rintro (⟨lead, _, hm⟩ | ⟨lead, has, hn⟩)
    · exact absurd (le_of_digits_eq_append hm) (Nat.not_le_of_lt hmn)
    · exact ⟨lead, hn, has⟩
  · rintro ⟨lead, hn, has⟩
    exact Or.inr ⟨lead, has, hn⟩

/-- What a greater number has more consists of digits, and of one at least. -/
theorem lead_of_lt {m n : Nat} (hmn : m < n) {lead : List Char} (h : digits n = lead ++ digits m) :
    lead ≠ [] ∧ ∀ c ∈ lead, c.isDigit = true := by
  constructor
  · rintro rfl
    have hsame : n = m := by rw [← value_digits n, h, List.nil_append, value_digits]
    exact Nat.lt_irrefl m (hsame ▸ hmn)
  · intro c hc
    exact isDigit_of_mem_digits (h ▸ List.mem_append_left _ hc)

end Intake.Text.Decimal
