import Intake.Json.Printer
import Intake.Json.Reader
import Intake.Proofs.Text.Digits
import Mathlib.Tactic.SplitIfs

/-!
# Written strings and integers are read back

The reader takes from the text exactly what the printer has put there: of a string up to its
closing mark, of an integer up to the first character that cannot belong to a number.
-/

namespace Intake.Json

open Text.Decimal

/-! ## Strings -/

theorem hex4_controlEscape :
    ∀ n < 0x20, hex4 '0' '0' (Nat.digitChar (n / 16)) (Nat.digitChar (n % 16)) = some n := by
  decide

theorem Letter.ofNat_of_lt {n : Nat} (h : n < 0xD800) : Letter.ofNat n = .char (.ofNat n) := by
  have hhigh : isHighSurrogate n = false := by
    rw [isHighSurrogate, Bool.and_eq_false_iff, decide_eq_false_iff_not]
    left
    omega
  have hlow : isLowSurrogate n = false := by
    rw [isLowSurrogate, Bool.and_eq_false_iff, decide_eq_false_iff_not]
    left
    omega
  rw [ofNat, hhigh, hlow]
  rfl

/-- A control character that was written with its number is read as such. -/
theorem stringBody_controlEscape {c : Char} (hc : c.toNat < 0x20) (rest : List Char) :
    stringBody (controlEscape c.toNat ++ rest) =
      (stringBody rest).map fun (ls, r) => (.char c :: ls, r) := by
  simp only [controlEscape, List.cons_append, List.nil_append, stringBody,
    hex4_controlEscape c.toNat hc, Letter.ofNat_of_lt (show c.toNat < 0xD800 by omega),
    Char.ofNat_toNat]

/-- A character that stands for itself is read as such. -/
theorem stringBody_plain {c : Char} (hmark : c ≠ '"') (hbackslash : c ≠ '\\')
    (hcontrol : ¬c.toNat < 0x20) (rest : List Char) :
    stringBody (c :: rest) = (stringBody rest).map fun (ls, r) => (.char c :: ls, r) := by
  rw [stringBody]
  · simp [hbackslash, hcontrol]
  all_goals simp_all

theorem stringBody_escapeChar (c : Char) (rest : List Char) :
    stringBody (escapeChar c ++ rest) =
      (stringBody rest).map fun (ls, r) => (.char c :: ls, r) := by
  rw [escapeChar]
  split_ifs with hmark hbackslash hn hr ht hb hf hcontrol
  all_goals try (subst c; rfl)
  · exact stringBody_controlEscape hcontrol rest
  · exact stringBody_plain hmark hbackslash hcontrol rest

theorem stringBody_escaped (cs rest : List Char) :
    stringBody (cs.flatMap escapeChar ++ '"' :: rest) = some (cs.map .char, rest) := by
  induction cs with
  | nil => rfl
  | cons c cs ih =>
      rw [List.flatMap_cons, List.append_assoc, stringBody_escapeChar, ih]
      rfl

theorem joined_map_char (cs : List Char) : joined (cs.map .char) = some cs := by
  induction cs with
  | nil => rfl
  | cons c cs ih => rw [List.map_cons, joined, ih, Option.map_some]

theorem stringToken_stringText (s : String) (rest : List Char) :
    stringToken true (stringText s ++ rest) = some (s, rest) := by
  rw [stringText, List.cons_append, List.append_assoc, List.cons_append, List.nil_append,
    stringToken, stringBody_escaped, Option.bind_eq_bind, Option.bind_some]
  simp only [if_true, joined_map_char, Option.bind_eq_bind, Option.bind_some, String.ofList_toList]

/-! ## Integers -/

/-- Whether a text does not begin with what could go on with a number. -/
structure EndsNumber (cs : List Char) : Prop where
  digits : EndsDigits cs
  marks : ∀ c ∈ cs.head?, c ≠ '.' ∧ c ≠ 'e' ∧ c ≠ 'E'

theorem endsNumber_nil : EndsNumber [] := ⟨endsDigits_nil, fun _ h => nomatch h⟩

theorem wholeDigits_digits {cs : List Char} (h : EndsNumber cs) (n : Nat) :
    wholeDigits (digits n ++ cs) = some (digits n, cs) := by
  have hall : ∀ c ∈ digits n, c.isDigit = true := fun c hc => isDigit_of_mem_digits hc
  rw [wholeDigits, h.digits.takeWhile hall, h.digits.dropWhile hall]
  split
  · next hnil => exact absurd hnil (digits_ne_nil n)
  · next heq => exact absurd heq (digits_ne_zero_cons n _ _)
  · rfl

theorem fractionDigits_of_ends {cs : List Char} (h : EndsNumber cs) :
    fractionDigits cs = some ([], cs) := by
  rw [fractionDigits]
  rintro rest rfl
  exact absurd rfl (h.marks '.' rfl).1

theorem exponentPart_of_ends {cs : List Char} (h : EndsNumber cs) :
    exponentPart cs = some (none, cs) := by
  cases cs with
  | nil => rfl
  | cons c rest =>
      have hc : ¬(c = 'e' ∨ c = 'E') := not_or.mpr (h.marks c rfl).2
      simp only [exponentPart, if_neg hc]

/-- The digits of a number do not begin with a sign. -/
theorem digits_append_ne_minus (n : Nat) (cs rest : List Char) :
    digits n ++ cs ≠ '-' :: rest := by
  intro h
  cases hds : digits n with
  | nil => exact digits_ne_nil n hds
  | cons c ds =>
      rw [hds, List.cons_append, List.cons.injEq] at h
      have hdigit : c.isDigit = true := isDigit_of_mem_digits (by rw [hds]; exact .head _)
      rw [h.1] at hdigit
      cases hdigit

theorem numberToken_digits (n : Nat) {cs : List Char} (h : EndsNumber cs) :
    numberToken (digits n ++ cs) = some (numberOf false (digits n) [] none, cs) := by
  have hplain : ∀ rest, digits n ++ cs = '-' :: rest → False := digits_append_ne_minus n cs
  simp only [numberToken, wholeDigits_digits h, fractionDigits_of_ends h, exponentPart_of_ends h,
    Option.bind_eq_bind, Option.bind_some]

theorem numberToken_minus (n : Nat) {cs : List Char} (h : EndsNumber cs) :
    numberToken ('-' :: (digits n ++ cs)) = some (numberOf true (digits n) [] none, cs) := by
  simp only [numberToken, wholeDigits_digits h, fractionDigits_of_ends h, exponentPart_of_ends h,
    Option.bind_eq_bind, Option.bind_some]

/-- Digits alone are an integer, if it has 64 bits and no sign in front of zero. -/
theorem numberOf_whole {negative : Bool} {whole : List Char} {n : Int}
    (hvalue : (if negative then -(Text.Decimal.value whole : Int) else Text.Decimal.value whole) = n)
    (hfits : Number.fits n = true) (hsign : negative = true → n ≠ 0) :
    numberOf negative whole [] none = .integer n := by
  have hzero : (negative && n == 0) = false := by
    rw [Bool.and_eq_false_imp]
    exact fun h => beq_false_of_ne (hsign h)
  simp [numberOf, hvalue, hfits, hzero]

/-- An integer of 64 bits is read as it was written. -/
theorem numberToken_intText {n : Int} (hfits : Number.fits n = true) {cs : List Char}
    (h : EndsNumber cs) :
    numberToken (Number.intText n ++ cs) = some (.integer n, cs) := by
  cases n with
  | ofNat n =>
      have hvalue : (Text.Decimal.value (digits n) : Int) = .ofNat n :=
        congrArg Int.ofNat (value_digits n)
      have hwhole : numberOf false (digits n) [] none = .integer (.ofNat n) :=
        numberOf_whole hvalue hfits Bool.noConfusion
      rw [Number.intText, numberToken_digits n h, hwhole]
  | negSucc n =>
      have hvalue : -(Text.Decimal.value (digits (n + 1)) : Int) = .negSucc n :=
        congrArg (fun k : Nat => -(k : Int)) (value_digits (n + 1))
      have hwhole : numberOf true (digits (n + 1)) [] none = .integer (.negSucc n) :=
        numberOf_whole hvalue hfits fun _ => Int.negSucc_ne_zero n
      rw [Number.intText, List.cons_append, numberToken_minus (n + 1) h, hwhole]

end Intake.Json
