import Intake.Proofs.Cleaning.Blanks
import Mathlib.Data.List.Chain

/-!
# Texts with single spaces

Folding the blanks of a text takes each run of them as a whole, from left to right. So the only
folded blank that is left is the space, no two spaces are next to each other, and after trimming
there is no blank at the ends, of whatever kind. A text of this form stays as it is; therefore
cleaning a second time changes nothing.
-/

namespace Intake.Cleaning

open Text

variable {c : Char} {cs ds run rest : List Char}

/-! ## Runs -/

theorem foldBlanks_cons_of_not (hc : ¬isFolded c = true) (rest : List Char) :
    foldBlanks (c :: rest) = c :: foldBlanks rest := by
  cases rest with
  | nil => rw [foldBlanks_single, if_neg hc]; rfl
  | cons d rest => rw [foldBlanks_cons_cons, if_neg hc]

/-- The last blank of a run stands for the whole run. -/
theorem foldBlanks_cons_of_last (hc : isFolded c = true)
    (hrest : ∀ d ∈ rest.head?, isFolded d = false) :
    foldBlanks (c :: rest) = ' ' :: foldBlanks rest := by
  cases rest with
  | nil => rw [foldBlanks_single, if_pos hc]; rfl
  | cons d rest =>
      have hd : ¬isFolded d = true := by simp [hrest d rfl]
      rw [foldBlanks_cons_cons, if_pos hc, if_neg hd]

/-- A run of folded blanks becomes one space. -/
theorem foldBlanks_run (hne : run ≠ []) (hrun : ∀ c ∈ run, isFolded c = true)
    (hrest : ∀ d ∈ rest.head?, isFolded d = false) :
    foldBlanks (run ++ rest) = ' ' :: foldBlanks rest := by
  induction run with
  | nil => exact absurd rfl hne
  | cons c run ih =>
      have hc := hrun c List.mem_cons_self
      cases run with
      | nil => exact foldBlanks_cons_of_last hc hrest
      | cons d run =>
          rw [List.cons_append, List.cons_append, foldBlanks_cons_cons, if_pos hc,
            if_pos (hrun d (List.mem_cons_of_mem c List.mem_cons_self))]
          exact ih (List.cons_ne_nil d run) fun b hb => hrun b (List.mem_cons_of_mem c hb)

/-- From left to right, a run of two or more folded blanks is replaced by one space as a whole, and
so is a single one that is no space; everything else stays. -/
def replaceRuns : List Char → List Char
  | [] => []
  | c :: rest =>
    if 2 ≤ ((c :: rest).takeWhile isFolded).length then
      ' ' :: replaceRuns ((c :: rest).dropWhile isFolded)
    else if isFolded c && c != ' ' then ' ' :: replaceRuns rest
    else c :: replaceRuns rest
termination_by cs => cs.length
decreasing_by
  · have hsplit := congrArg List.length
      (List.takeWhile_append_dropWhile (p := isFolded) (l := c :: rest))
    rw [List.length_append] at hsplit
    omega
  · exact Nat.lt_succ_self _
  · exact Nat.lt_succ_self _

/-- A run of one is followed by a character that is not folded. -/
theorem head?_of_single (hc : isFolded c = true)
    (hshort : ¬2 ≤ ((c :: rest).takeWhile isFolded).length) :
    ∀ d ∈ rest.head?, isFolded d = false := by
  intro d hmem
  obtain ⟨rest, rfl⟩ := List.head?_eq_some_iff.mp hmem
  rw [← Bool.not_eq_true]
  intro hd
  rw [List.takeWhile_cons_of_pos hc, List.takeWhile_cons_of_pos hd, List.length_cons,
    List.length_cons] at hshort
  omega

/-- Folding is this replacement. -/
theorem foldBlanks_eq_replaceRuns (cs : List Char) : foldBlanks cs = replaceRuns cs := by
  fun_induction replaceRuns cs with
  | case1 => rfl
  | case2 c rest hlong ih =>
      have hrun : (c :: rest).takeWhile isFolded ≠ [] := by
        intro hnil
        rw [hnil] at hlong
        exact absurd hlong (by decide)
      rw [← ih, ← foldBlanks_run hrun (fun b hb => List.mem_takeWhile_imp hb)
        (head?_dropWhile isFolded (c :: rest)), List.takeWhile_append_dropWhile]
  | case3 c rest hshort hspecial ih =>
      have hc : isFolded c = true := (Bool.and_eq_true_iff.mp hspecial).1
      rw [← ih, foldBlanks_cons_of_last hc (head?_of_single hc hshort)]
  | case4 c rest hshort hplain ih =>
      by_cases hc : isFolded c = true
      · -- a single space is kept, and so it is as if it were replaced
        have hspace : c = ' ' := by simpa [hc] using hplain
        rw [← ih, foldBlanks_cons_of_last hc (head?_of_single hc hshort), hspace]
      · rw [foldBlanks_cons_of_not hc, ih]

/-! ## Single spaces -/

/-- The only folded blank is the space, and no two spaces are next to each other. -/
structure Spaced (cs : List Char) : Prop where
  folded : ∀ c ∈ cs, isFolded c = true → c = ' '
  apart : cs.IsChain fun c d => ¬(c = ' ' ∧ d = ' ')

/-- A text with single spaces has them also in each of its parts. -/
theorem Spaced.part (h : Spaced cs) (hds : ds <:+: cs) : Spaced ds := by
  constructor
  · intro c hc
    exact h.folded c (hds.subset hc)
  · exact List.IsChain.infix h.apart hds

theorem Spaced.cons (h : Spaced cs) (hc : isFolded c = true → c = ' ')
    (hnext : ∀ d ∈ cs.head?, ¬(c = ' ' ∧ d = ' ')) : Spaced (c :: cs) := by
  constructor
  · intro d hd
    rcases List.mem_cons.mp hd with rfl | hd
    · exact hc
    · exact h.folded d hd
  · cases cs with
    | nil => exact List.isChain_singleton c
    | cons d rest => exact List.isChain_cons_cons.mpr ⟨hnext d rfl, h.apart⟩

theorem isFolded_space : isFolded ' ' = true := by decide

/-- What is folded begins with a space only if the text begins with a folded blank. -/
theorem head?_foldBlanks (h : ∀ d ∈ cs.head?, isFolded d = false) :
    (foldBlanks cs).head? ≠ some ' ' := by
  cases cs with
  | nil => exact fun hnone => by cases hnone
  | cons c rest =>
      have hc : ¬isFolded c = true := by simp [h c rfl]
      rw [foldBlanks_cons_of_not hc, List.head?_cons]
      intro hspace
      exact hc (Option.some.inj hspace ▸ isFolded_space)

/-- Folding leaves single spaces. -/
theorem spaced_foldBlanks (cs : List Char) : Spaced (foldBlanks cs) := by
  induction cs with
  | nil => exact ⟨fun c hc => (List.not_mem_nil hc).elim, List.isChain_nil⟩
  | cons c rest ih =>
      by_cases hc : isFolded c = true
      · by_cases hrest : ∀ d ∈ rest.head?, isFolded d = false
        · rw [foldBlanks_cons_of_last hc hrest]
          refine ih.cons (fun _ => rfl) fun d hd hboth => ?_
          exact head?_foldBlanks hrest (hboth.2 ▸ hd)
        · -- the run goes on, and its next blank stands for this one
          cases rest with
          | nil => exact absurd (fun _ hd => by cases hd) hrest
          | cons d rest =>
              have hd : isFolded d = true := by simpa using hrest
              rw [foldBlanks_cons_cons, if_pos hc, if_pos hd]
              exact ih
      · rw [foldBlanks_cons_of_not hc]
        refine ih.cons (fun hfolded => absurd hfolded hc) fun d _ hboth => ?_
        exact hc (hboth.1 ▸ isFolded_space)

/-- A text with single spaces stays as it is. -/
theorem Spaced.foldBlanks_eq (h : Spaced cs) : foldBlanks cs = cs := by
  induction cs with
  | nil => rfl
  | cons c rest ih =>
      have hrest : Spaced rest := h.part (List.suffix_cons c rest).isInfix
      by_cases hc : isFolded c = true
      · have hspace : c = ' ' := h.folded c List.mem_cons_self hc
        have hnext : ∀ d ∈ rest.head?, isFolded d = false := by
          intro d hmem
          obtain ⟨rest, rfl⟩ := List.head?_eq_some_iff.mp hmem
          rw [← Bool.not_eq_true]
          intro hd
          have hspace' : d = ' ' := h.folded d (by simp) hd
          exact (List.isChain_cons_cons.mp h.apart).1 ⟨hspace, hspace'⟩
        rw [foldBlanks_cons_of_last hc hnext, ih hrest, hspace]
      · rw [foldBlanks_cons_of_not hc, ih hrest]

/-! ## Clean texts -/

/-- A text with single spaces and without blanks at its ends. -/
structure Clean (cs : List Char) : Prop extends Spaced cs where
  first : ∀ c ∈ cs.head?, isBlank c = false
  last : ∀ c ∈ cs.getLast?, isBlank c = false

theorem clean_trimChars (h : Spaced cs) : Clean (trimChars cs) :=
  ⟨h.part (infix_trimChars cs), head?_trimChars cs, getLast?_trimChars cs⟩

/-- A clean text stays as it is. -/
theorem Clean.trimChars_foldBlanks (h : Clean cs) : trimChars (foldBlanks cs) = cs := by
  rw [h.foldBlanks_eq, trimChars_eq_self h.first h.last]

theorem clean_extraWhitespace (s : String) : Clean (extraWhitespace s).toList := by
  unfold extraWhitespace
  rw [String.toList_ofList]
  exact clean_trimChars (spaced_foldBlanks _)

theorem extraWhitespace_of_clean {s : String} (h : Clean s.toList) : extraWhitespace s = s := by
  unfold extraWhitespace
  rw [h.trimChars_foldBlanks, String.ofList_toList]

/-- **Blanks are cleaned for good.** Cleaning replaces the runs of folded blanks from left to right
and trims the result. What it makes has no tab, line end or no-break space, no two spaces next to
each other, and no blank at its ends; it has the same characters besides blanks as the text; it is
empty exactly if the text is all blank; and cleaning it again changes nothing. -/
theorem whitespace_cleaned (s : String) :
    (extraWhitespace s).toList = trimChars (replaceRuns s.toList) ∧
    ('\t' ∉ (extraWhitespace s).toList ∧ '\n' ∉ (extraWhitespace s).toList ∧
      '\r' ∉ (extraWhitespace s).toList ∧ '\u00A0' ∉ (extraWhitespace s).toList) ∧
    ¬[' ', ' '] <:+: (extraWhitespace s).toList ∧
    ((∀ c ∈ (extraWhitespace s).toList.head?, isBlank c = false) ∧
      ∀ c ∈ (extraWhitespace s).toList.getLast?, isBlank c = false) ∧
    (extraWhitespace s).toList.filter (!isBlank ·) = s.toList.filter (!isBlank ·) ∧
    (extraWhitespace s = "" ↔ s.toList.all isBlank = true) ∧
    extraWhitespace (extraWhitespace s) = extraWhitespace s := by
  have hclean := clean_extraWhitespace s
  have hnone {c : Char} (hc : isFolded c = true) (hne : c ≠ ' ') :
      c ∉ (extraWhitespace s).toList := fun hmem => hne (hclean.folded c hmem hc)
  refine ⟨?_, ⟨hnone rfl (by decide), hnone rfl (by decide), hnone rfl (by decide),
    hnone rfl (by decide)⟩, ?_, ⟨hclean.first, hclean.last⟩, solid_extraWhitespace s, ?_,
    extraWhitespace_of_clean hclean⟩
  · unfold extraWhitespace
    rw [String.toList_ofList, foldBlanks_eq_replaceRuns]
  · intro hpair
    have hapart := List.IsChain.infix hclean.apart hpair
    exact List.isChain_pair.mp hapart ⟨rfl, rfl⟩
  · rw [← String.isEmpty_iff, isEmpty_extraWhitespace]
    exact Iff.rfl

end Intake.Cleaning
