import Intake.Cleaning.Cleaners
import Intake.Proofs.Dump.RoundTrip
import Intake.Proofs.Text.Ends

/-!
# Blanks of texts

Folding the blanks of a text and dropping those at its ends gives the same whether the blanks
of markup were dropped there before; and nothing is left only of a text that has no character
but blanks. So a text that went through a dump is cleaned to what it would have been cleaned to
without the dump.
-/

namespace Intake

open Text (isBlank solid trimChars)

namespace Cleaning

/-! ## Folded blanks -/

theorem isBlank_of_isFolded {c : Char} (h : isFolded c = true) : isBlank c = true := by
  simp only [isFolded, Bool.or_eq_true, beq_iff_eq] at h
  rcases h with (((rfl | rfl) | rfl) | rfl) | rfl <;> decide

/-- The blanks of markup are among those that are folded. -/
theorem isFolded_of_markup {c : Char} (h : Dump.isBlank c = true) : isFolded c = true := by
  simp only [Dump.isBlank, Bool.or_eq_true, beq_iff_eq] at h
  rcases h with ((rfl | rfl) | rfl) | rfl <;> decide

theorem foldBlanks_single (c : Char) :
    foldBlanks [c] = if isFolded c = true then [' '] else [c] := rfl

theorem foldBlanks_cons_cons (c d : Char) (rest : List Char) :
    foldBlanks (c :: d :: rest) =
      if isFolded c = true then
        if isFolded d = true then foldBlanks (d :: rest) else ' ' :: foldBlanks (d :: rest)
      else c :: foldBlanks (d :: rest) := rfl

theorem trimChars_foldBlanks_cons {c : Char} (hc : isFolded c = true) (cs : List Char) :
    trimChars (foldBlanks (c :: cs)) = trimChars (foldBlanks cs) := by
  cases cs with
  | nil =>
      rw [foldBlanks_single, if_pos hc]
      exact Text.trimChars_cons (by decide) []
  | cons d rest =>
      rw [foldBlanks_cons_cons, if_pos hc]
      split
      · rfl
      · exact Text.trimChars_cons (by decide) _

/-- A blank at the end of a text is folded into the blanks before it, or adds a space. -/
theorem foldBlanks_concat {c : Char} (hc : isFolded c = true) (cs : List Char) :
    foldBlanks (cs ++ [c]) = foldBlanks cs ∨ foldBlanks (cs ++ [c]) = foldBlanks cs ++ [' '] := by
  induction cs with
  | nil =>
      right
      rw [List.nil_append, foldBlanks_single, if_pos hc]
      rfl
  | cons a rest ih =>
      cases rest with
      | nil =>
          rw [List.singleton_append, foldBlanks_cons_cons, foldBlanks_single, foldBlanks_single,
            if_pos hc, if_pos hc]
          by_cases ha : isFolded a = true
          · rw [if_pos ha, if_pos ha]
            exact Or.inl rfl
          · rw [if_neg ha, if_neg ha]
            exact Or.inr rfl
      | cons d rest =>
          -- the first character is folded or kept alike in front of the same rest
          have hfront : ∀ front, front ++ foldBlanks (d :: rest ++ [c]) =
              front ++ foldBlanks (d :: rest) ∨ front ++ foldBlanks (d :: rest ++ [c]) =
                front ++ foldBlanks (d :: rest) ++ [' '] := by
            intro front
            rcases ih with ih | ih
            · exact Or.inl (by rw [ih])
            · exact Or.inr (by rw [ih, List.append_assoc])
          rw [List.cons_append, List.cons_append, foldBlanks_cons_cons, foldBlanks_cons_cons]
          by_cases ha : isFolded a = true
          · rw [if_pos ha, if_pos ha]
            split
            · exact hfront []
            · exact hfront [' ']
          · rw [if_neg ha, if_neg ha]
            exact hfront [a]

theorem trimChars_foldBlanks_concat {c : Char} (hc : isFolded c = true) (cs : List Char) :
    trimChars (foldBlanks (cs ++ [c])) = trimChars (foldBlanks cs) := by
  rcases foldBlanks_concat hc cs with h | h
  · rw [h]
  · rw [h]
    exact Text.trimChars_concat (by decide) _

/-- Blanks at both ends of a text are dropped. -/
theorem trimChars_foldBlanks_append {front cs back : List Char}
    (hfront : ∀ c ∈ front, isFolded c = true) (hback : ∀ c ∈ back, isFolded c = true) :
    trimChars (foldBlanks (front ++ cs ++ back)) = trimChars (foldBlanks cs) := by
  induction back using List.reverseRecOn with
  | nil =>
      rw [List.append_nil]
      induction front with
      | nil => rfl
      | cons c front ih =>
          rw [List.cons_append, trimChars_foldBlanks_cons (hfront c List.mem_cons_self)]
          exact ih fun c hc => hfront c (List.mem_cons_of_mem _ hc)
  | append_singleton back c ih =>
      rw [← List.append_assoc, trimChars_foldBlanks_concat (hback c (by simp))]
      exact ih fun c hc => hback c (List.mem_append_left _ hc)

/-- Folding neither makes blanks of other characters nor drops others. -/
@[simp] theorem solid_foldBlanks (cs : List Char) : solid (foldBlanks cs) = solid cs := by
  have hspace : isBlank ' ' = true := by decide
  induction cs with
  | nil => rfl
  | cons a rest ih =>
      cases rest with
      | nil =>
          rw [foldBlanks_single]
          split
          · next ha =>
              rw [Text.solid_cons_of_blank hspace,
                Text.solid_cons_of_blank (isBlank_of_isFolded ha)]
          · rfl
      | cons d rest =>
          rw [foldBlanks_cons_cons]
          split
          · next ha =>
              rw [Text.solid_cons_of_blank (isBlank_of_isFolded ha)]
              split
              · exact ih
              · rw [Text.solid_cons_of_blank hspace, ih]
          · rw [← List.singleton_append, Text.solid_append, ih, ← Text.solid_append,
              List.singleton_append]

/-! ## Cleaned texts -/

/-- A text is cleaned alike whether the blanks of markup at its ends were dropped before. -/
theorem extraWhitespace_trimmed (s : String) :
    extraWhitespace (String.ofList (Dump.trimmed s.toList)) = extraWhitespace s := by
  obtain ⟨front, back, hsplit, hfront, hback⟩ := (Dump.core_trimmed s.toList).parts
  rw [extraWhitespace, extraWhitespace, String.toList_ofList]
  generalize Dump.trimmed s.toList = kept at *
  rw [hsplit, trimChars_foldBlanks_append (fun c hc => isFolded_of_markup (hfront c hc))
    fun c hc => isFolded_of_markup (hback c hc)]

/-- A cleaned text has all characters of the text that are no blanks. -/
theorem solid_extraWhitespace (s : String) :
    solid (extraWhitespace s).toList = solid s.toList := by
  rw [extraWhitespace, String.toList_ofList, Text.solid_trimChars, solid_foldBlanks]

/-- Nothing is left of a cleaned text only if it has nothing but blanks. -/
theorem isEmpty_extraWhitespace (s : String) :
    (extraWhitespace s).isEmpty = Text.isBlankText s := by
  rw [Bool.eq_iff_iff, String.isEmpty_iff, extraWhitespace, ← String.toList_eq_nil_iff,
    String.toList_ofList, Text.trimChars_eq_nil, ← Text.solid_eq_nil, solid_foldBlanks,
    Text.solid_eq_nil, Text.isBlankText, List.all_eq_true]

end Cleaning

end Intake
