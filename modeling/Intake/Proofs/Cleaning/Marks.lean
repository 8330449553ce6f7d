import Intake.Cleaning.Cleaners
import Intake.Proofs.Cleaning.Pipelines
import Intake.Proofs.Text.Ends
import Mathlib.Logic.Function.Iterate

/-!
# Marks at the end of a text

The marks at the end of a text are dropped after the blanks, and both only once. A blank in front
of the marks is therefore left at the end, and with it the marks before that blank. Cleaning the
text again drops what was left, as far as the next such blank; cleaning it as often as it has
characters drops all of them.
-/

namespace Intake.Cleaning

open Text

variable {s : String}

/-- A blank, or a mark that is dropped at the end of a text. -/
def isLoose (c : Char) : Bool := isEndMark c || isBlank c

/-- A text without the blanks that it begins with, and without all blanks and marks that it ends
with, in whatever order they stand. -/
def strip (s : String) : String :=
  String.ofList (dropEndWhile isLoose (s.toList.dropWhile isBlank))

/-- Nothing is left to drop: the text neither begins with a blank, nor ends with a blank or mark. -/
structure Stripped (s : String) : Prop where
  first : ∀ c ∈ s.toList.head?, isBlank c = false
  last : ∀ c ∈ s.toList.getLast?, isLoose c = false

theorem isLoose_eq_false {c : Char} :
    isLoose c = false ↔ isEndMark c = false ∧ isBlank c = false := Bool.or_eq_false_iff

theorem isEndMark_eq_false {c : Char} (h : isBlank c = true) : isEndMark c = false := by
  rw [← Bool.not_eq_true]
  intro hmark
  simp only [isEndMark, Bool.or_eq_true, beq_iff_eq] at hmark
  rcases hmark with ((rfl | rfl) | rfl) | rfl <;> cases h

/-! ## What is dropped -/

theorem toList_trailingPunctuation (s : String) :
    (trailingPunctuation s).toList = dropEndWhile isEndMark (trimChars s.toList) :=
  String.toList_ofList

theorem toList_strip (s : String) :
    (strip s).toList = dropEndWhile isLoose (s.toList.dropWhile isBlank) :=
  String.toList_ofList

/-- Behind what is kept there are marks, and blanks behind these. -/
theorem exists_trailingPunctuation (s : String) : ∃ marks blanks,
    s.toList.dropWhile isBlank = (trailingPunctuation s).toList ++ marks ++ blanks ∧
      (∀ c ∈ marks, isEndMark c = true) ∧ ∀ c ∈ blanks, isBlank c = true := by
  obtain ⟨blanks, hblanks, hall⟩ := exists_dropEndWhile isBlank (s.toList.dropWhile isBlank)
  obtain ⟨marks, hmarks, hall'⟩ := exists_dropEndWhile isEndMark (trimChars s.toList)
  refine ⟨marks, blanks, ?_, hall', hall⟩
  rw [toList_trailingPunctuation, ← hmarks]
  exact hblanks

theorem infix_trailingPunctuation (s : String) : (trailingPunctuation s).toList <:+: s.toList := by
  rw [toList_trailingPunctuation]
  exact (List.rdropWhile_prefix isEndMark _).isInfix.trans (infix_trimChars s.toList)

theorem head?_trailingPunctuation (s : String) :
    ∀ c ∈ (trailingPunctuation s).toList.head?, isBlank c = false := by
  rw [toList_trailingPunctuation]
  exact head?_dropEndWhile (head?_trimChars s.toList)

theorem getLast?_trailingPunctuation (s : String) :
    ∀ c ∈ (trailingPunctuation s).toList.getLast?, isEndMark c = false := by
  rw [toList_trailingPunctuation]
  exact getLast?_dropEndWhile isEndMark (trimChars s.toList)

/-- A blank is left at the end exactly if one stands in front of the marks. -/
theorem exists_blank_iff : (∃ c ∈ (trailingPunctuation s).toList.getLast?, isBlank c = true) ↔
    ∃ front blank marks, trimChars s.toList = front ++ blank :: marks ∧ isBlank blank = true ∧
      ∀ c ∈ marks, isEndMark c = true := by
  rw [toList_trailingPunctuation]
  constructor
  · rintro ⟨blank, hlast, hblank⟩
    obtain ⟨marks, hsplit, hmarks⟩ := exists_dropEndWhile isEndMark (trimChars s.toList)
    obtain ⟨front, hfront⟩ := List.getLast?_eq_some_iff.mp hlast
    refine ⟨front, blank, marks, ?_, hblank, hmarks⟩
    rw [hsplit, hfront, List.append_assoc, List.singleton_append]
  · rintro ⟨front, blank, marks, hsplit, hblank, hmarks⟩
    have hkept : dropEndWhile isEndMark (front ++ [blank]) = front ++ [blank] := by
      apply dropEndWhile_eq_self
      rw [List.getLast?_concat]
      intro c hc
      rw [← Option.some.inj hc]
      exact isEndMark_eq_false hblank
    refine ⟨blank, ?_, hblank⟩
    rw [hsplit, List.append_cons, dropEndWhile_append hmarks, hkept, List.getLast?_concat]
    rfl

/-! ## Texts with nothing to drop -/

theorem stripped_strip (s : String) : Stripped (strip s) where
  first := by
    rw [toList_strip]
    exact head?_dropEndWhile (head?_dropWhile isBlank s.toList)
  last := by
    rw [toList_strip]
    exact getLast?_dropEndWhile isLoose (s.toList.dropWhile isBlank)

theorem Stripped.strip_eq (h : Stripped s) : strip s = s := by
  rw [← String.toList_inj, toList_strip, dropWhile_eq_self h.first, dropEndWhile_eq_self h.last]

theorem Stripped.trailingPunctuation_eq (h : Stripped s) : trailingPunctuation s = s := by
  have htrim : trimChars s.toList = s.toList :=
    trimChars_eq_self h.first fun c hc => (isLoose_eq_false.mp (h.last c hc)).2
  rw [← String.toList_inj, toList_trailingPunctuation, htrim]
  exact dropEndWhile_eq_self fun c hc => (isLoose_eq_false.mp (h.last c hc)).1

/-- A text that is cleaned and stays as it is has nothing to drop: no mark, and no blank either,
which would be dropped in front of no mark. -/
theorem stripped_of_eq (h : trailingPunctuation s = s) : Stripped s := by
  have hfirst := head?_trailingPunctuation s
  have hlast := getLast?_trailingPunctuation s
  rw [h] at hfirst hlast
  refine ⟨hfirst, fun c hc => isLoose_eq_false.mpr ⟨hlast c hc, ?_⟩⟩
  -- all of the text is left after its blanks are dropped, since it is left after its marks are
  have htrim : s.toList = trimChars s.toList := by
    obtain ⟨marks, hsplit, -⟩ := exists_dropEndWhile isEndMark (trimChars s.toList)
    rw [← toList_trailingPunctuation, h] at hsplit
    have hprefix : s.toList <+: trimChars s.toList := ⟨marks, hsplit.symm⟩
    exact hprefix.eq_of_length_le (infix_trimChars s.toList).length_le
  rw [htrim] at hc
  exact getLast?_trimChars s.toList c hc

theorem stripped_trailingPunctuation_iff : Stripped (trailingPunctuation s) ↔
    ∀ c ∈ (trailingPunctuation s).toList.getLast?, isBlank c = false := by
  constructor
  · intro h c hc
    exact (isLoose_eq_false.mp (h.last c hc)).2
  · intro h
    refine ⟨head?_trailingPunctuation s, fun c hc => isLoose_eq_false.mpr ⟨?_, h c hc⟩⟩
    exact getLast?_trailingPunctuation s c hc

/-! ## Cleaning again and again -/

/-- What is dropped is part of what can be dropped. -/
theorem strip_trailingPunctuation (s : String) : strip (trailingPunctuation s) = strip s := by
  obtain ⟨marks, blanks, hsplit, hmarks, hblanks⟩ := exists_trailingPunctuation s
  have hloose : ∀ c ∈ marks ++ blanks, isLoose c = true := by
    intro c hc
    unfold isLoose
    rcases List.mem_append.mp hc with hc | hc
    · rw [hmarks c hc, Bool.true_or]
    · rw [hblanks c hc, Bool.or_true]
  rw [← String.toList_inj, toList_strip, toList_strip, hsplit, List.append_assoc,
    dropEndWhile_append hloose, dropWhile_eq_self (head?_trailingPunctuation s)]

theorem trailingPunctuation_eq_strip_iff : trailingPunctuation s = strip s ↔
    Stripped (trailingPunctuation s) := by
  constructor
  · intro h
    rw [h]
    exact stripped_strip s
  · intro h
    rw [← strip_trailingPunctuation, h.strip_eq]

/-- A text that does not stay as it is gets shorter. -/
theorem length_lt_of_ne (h : trailingPunctuation s ≠ s) :
    (trailingPunctuation s).toList.length < s.toList.length := by
  have hpart := infix_trailingPunctuation s
  apply Nat.lt_of_le_of_ne hpart.length_le
  intro hlength
  exact h (String.toList_inj.mp (hpart.eq_of_length hlength))

/-- So it stays as it is in the end, and then all is dropped that can be dropped. -/
theorem iterate_trailingPunctuation {n : Nat} (h : s.toList.length ≤ n) :
    trailingPunctuation^[n] s = strip s := by
  induction n generalizing s with
  | zero =>
      obtain rfl : s = "" := String.toList_eq_nil_iff.mp (List.length_eq_zero_iff.mp (by omega))
      rfl
  | succ n ih =>
      rw [Function.iterate_succ_apply]
      by_cases hsame : trailingPunctuation s = s
      · rw [hsame, Function.iterate_fixed hsame, (stripped_of_eq hsame).strip_eq]
      · have hshort := length_lt_of_ne hsame
        rw [ih (by omega), strip_trailingPunctuation]

/-- **Marks are dropped once.** Of a text without the blanks at its beginning, the blanks at the end
are dropped, then the marks in front of these, and nothing else. What is left ends in no mark. It
ends in a blank exactly if one stands in front of the marks; exactly then cleaning it again changes
it, and all the blanks and marks at the end are dropped only by cleaning often enough. In a
pipeline, cleaning twice in a row leaves what cleaning once leaves, whatever comes after it, exactly
if no text ends in a blank after the first time. -/
theorem marks_dropped_once (s : String) (before : List Cleaner) (fields : List Field) :
    (∃ marks blanks,
      s.toList.dropWhile isBlank = (trailingPunctuation s).toList ++ marks ++ blanks ∧
        (∀ c ∈ marks, isEndMark c = true) ∧ ∀ c ∈ blanks, isBlank c = true) ∧
    (∀ c ∈ (trailingPunctuation s).toList.getLast?, isEndMark c = false) ∧
    ((∃ c ∈ (trailingPunctuation s).toList.getLast?, isBlank c = true) ↔
      ∃ front blank marks, trimChars s.toList = front ++ blank :: marks ∧ isBlank blank = true ∧
        ∀ c ∈ marks, isEndMark c = true) ∧
    (trailingPunctuation (trailingPunctuation s) = trailingPunctuation s ↔
      ∀ c ∈ (trailingPunctuation s).toList.getLast?, isBlank c = false) ∧
    (trailingPunctuation s = strip s ↔
      ∀ c ∈ (trailingPunctuation s).toList.getLast?, isBlank c = false) ∧
    (∀ n, trailingPunctuation^[s.toList.length + n] s = strip s) ∧
    ((∀ after,
        (run (before ++ ofFunction trailingPunctuation :: ofFunction trailingPunctuation :: after)
          fields).toOption =
        (run (before ++ ofFunction trailingPunctuation :: after) fields).toOption) ↔
      ∀ texts, run before fields = .ok texts → ∀ field ∈ texts,
        ∀ c ∈ (trailingPunctuation field.value).toList.getLast?, isBlank c = false) := by
  have hagain (s : String) :
      trailingPunctuation (trailingPunctuation s) = trailingPunctuation s ↔
        ∀ c ∈ (trailingPunctuation s).toList.getLast?, isBlank c = false := by
    rw [← stripped_trailingPunctuation_iff]
    exact ⟨stripped_of_eq, Stripped.trailingPunctuation_eq⟩
  refine ⟨exists_trailingPunctuation s, getLast?_trailingPunctuation s, exists_blank_iff,
    hagain s, ?_, fun n => iterate_trailingPunctuation (Nat.le_add_right _ n), ?_⟩
  · rw [trailingPunctuation_eq_strip_iff, stripped_trailingPunctuation_iff]
  · simp only [run_twice_iff, hagain]

/-- A blank is left at the end, and a mark in front of it, if another mark stands behind the blank.
Cleaning the text again drops both, on its own and in a pipeline. -/
theorem blank_left_behind :
    trailingPunctuation "Done. ;" = "Done. " ∧
    trailingPunctuation (trailingPunctuation "Done. ;") = "Done" ∧
    ¬run [ofFunction trailingPunctuation, ofFunction trailingPunctuation]
        [⟨"text", "Done. ;"⟩] =
      run [ofFunction trailingPunctuation] [⟨"text", "Done. ;"⟩] := by
  refine ⟨by decide, by decide, fun h => ?_⟩
  have htexts := congrArg (fun r => r.toOption.map (List.map Field.value)) h
  exact absurd htexts (by decide)

end Intake.Cleaning
