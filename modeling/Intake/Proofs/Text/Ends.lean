import Intake.Text.Blank
import Mathlib.Data.List.DropRight

/-!
# Ends of texts

Blanks at the two ends of a text make no difference to what is left of it without them, and nothing
is left only of a text that has nothing but blanks. Dropping them takes no other character away, so
a text has the same characters besides its blanks before and after.
-/

namespace Intake.Text

theorem dropEndWhile_eq (p : Char → Bool) (cs : List Char) : dropEndWhile p cs = cs.rdropWhile p :=
  rfl

theorem trimChars_cons {c : Char} (hc : isBlank c = true) (cs : List Char) :
    trimChars (c :: cs) = trimChars cs := by
  rw [trimChars, List.dropWhile_cons_of_pos hc, trimChars]

theorem trimChars_concat {c : Char} (hc : isBlank c = true) (cs : List Char) :
    trimChars (cs ++ [c]) = trimChars cs := by
  rw [trimChars, trimChars, List.dropWhile_append]
  split
  · next hempty =>
      rw [List.isEmpty_iff.mp hempty, List.dropWhile_cons_of_pos hc]
      rfl
  · rw [dropEndWhile_eq, dropEndWhile_eq, List.rdropWhile_concat_pos _ _ _ hc]

/-! ## What stays at the ends -/

variable {p q : Char → Bool} {cs : List Char}

theorem head?_dropWhile (p : Char → Bool) (cs : List Char) :
    ∀ c ∈ (cs.dropWhile p).head?, p c = false := by
  intro c hc
  have hfirst := List.head?_dropWhile_not p cs
  rwa [Option.mem_def.mp hc] at hfirst

theorem getLast?_dropEndWhile (p : Char → Bool) (cs : List Char) :
    ∀ c ∈ (dropEndWhile p cs).getLast?, p c = false := by
  intro c hc
  obtain ⟨hne, rfl⟩ := List.mem_getLast?_eq_getLast hc
  exact Bool.eq_false_iff.mpr (List.rdropWhile_last_not p cs hne)

/-- What is dropped at the end is all of one kind. -/
theorem exists_dropEndWhile (p : Char → Bool) (cs : List Char) :
    ∃ back, cs = dropEndWhile p cs ++ back ∧ ∀ c ∈ back, p c = true :=
  ⟨cs.rtakeWhile p, List.rdropWhile_append_rtakeWhile.symm,
    fun _ hc => List.mem_rtakeWhile_imp hc⟩

theorem dropEndWhile_append {back : List Char} (hback : ∀ c ∈ back, p c = true)
    (cs : List Char) : dropEndWhile p (cs ++ back) = dropEndWhile p cs := by
  rw [dropEndWhile, List.reverse_append, List.dropWhile_append_of_pos, ← dropEndWhile]
  exact fun c hc => hback c (List.mem_reverse.mp hc)

/-- Dropping characters at the end keeps the one that a text begins with. -/
theorem head?_dropEndWhile (h : ∀ c ∈ cs.head?, q c = false) :
    ∀ c ∈ (dropEndWhile p cs).head?, q c = false := by
  intro c hc
  obtain ⟨back, hsplit, -⟩ := exists_dropEndWhile p cs
  apply h
  rw [hsplit, List.head?_append, Option.mem_def.mp hc]
  rfl

theorem dropWhile_eq_self (h : ∀ c ∈ cs.head?, p c = false) : cs.dropWhile p = cs := by
  cases cs with
  | nil => rfl
  | cons c rest => exact List.dropWhile_cons_of_neg (by simp [h c rfl])

theorem dropEndWhile_eq_self (h : ∀ c ∈ cs.getLast?, p c = false) : dropEndWhile p cs = cs := by
  rw [dropEndWhile_eq, List.rdropWhile_eq_self_iff]
  intro hne
  simp [h _ (List.getLast_mem_getLast? hne)]

theorem head?_trimChars (cs : List Char) : ∀ c ∈ (trimChars cs).head?, isBlank c = false :=
  head?_dropEndWhile (head?_dropWhile isBlank cs)

theorem getLast?_trimChars (cs : List Char) : ∀ c ∈ (trimChars cs).getLast?, isBlank c = false :=
  getLast?_dropEndWhile isBlank (cs.dropWhile isBlank)

/-- A text without outer blanks stays as it is. -/
theorem trimChars_eq_self (hfirst : ∀ c ∈ cs.head?, isBlank c = false)
    (hlast : ∀ c ∈ cs.getLast?, isBlank c = false) : trimChars cs = cs := by
  rw [trimChars, dropWhile_eq_self hfirst, dropEndWhile_eq_self hlast]

/-- Trimming only takes away at the ends. -/
theorem infix_trimChars (cs : List Char) : trimChars cs <:+: cs :=
  (List.rdropWhile_prefix isBlank _).isInfix.trans (List.dropWhile_suffix isBlank).isInfix

/-! ## Characters that are no blanks -/

/-- What a text has besides blanks, in its order. -/
def solid (cs : List Char) : List Char := cs.filter (!isBlank ·)

@[simp] theorem solid_append (front back : List Char) :
    solid (front ++ back) = solid front ++ solid back := List.filter_append front back

theorem solid_cons_of_blank {c : Char} (hc : isBlank c = true) (cs : List Char) :
    solid (c :: cs) = solid cs := by
  rw [solid, List.filter_cons_of_neg (by simp [hc]), solid]

theorem solid_eq_nil {cs : List Char} : solid cs = [] ↔ ∀ c ∈ cs, isBlank c = true := by
  simp [solid]

/-- Blanks that a text begins with. -/
theorem solid_dropWhile {p : Char → Bool} (hp : ∀ c, p c = true → isBlank c = true)
    (cs : List Char) : solid (cs.dropWhile p) = solid cs := by
  have hfront : solid (cs.takeWhile p) = [] :=
    solid_eq_nil.mpr fun c hc => hp c (List.mem_takeWhile_imp hc)
  conv_rhs => rw [← List.takeWhile_append_dropWhile (p := p) (l := cs)]
  rw [solid_append, hfront, List.nil_append]

/-- Blanks that a text ends with. -/
theorem solid_dropEndWhile {p : Char → Bool} (hp : ∀ c, p c = true → isBlank c = true)
    (cs : List Char) : solid (dropEndWhile p cs) = solid cs := by
  obtain ⟨back, hsplit, hback⟩ := exists_dropEndWhile p cs
  have hnone : solid back = [] := solid_eq_nil.mpr fun c hc => hp c (hback c hc)
  conv_rhs => rw [hsplit]
  rw [solid_append, hnone, List.append_nil]

/-- Outer blanks are all that is dropped. -/
@[simp] theorem solid_trimChars (cs : List Char) : solid (trimChars cs) = solid cs := by
  rw [trimChars, solid_dropEndWhile fun _ hc => hc, solid_dropWhile fun _ hc => hc]

/-- Nothing is left of a text without its outer blanks only if it has nothing but blanks. -/
theorem trimChars_eq_nil {cs : List Char} :
    trimChars cs = [] ↔ ∀ c ∈ cs, isBlank c = true := by
  constructor
  · intro h
    rw [← solid_eq_nil, ← solid_trimChars, h]
    rfl
  · intro h
    rw [trimChars, List.dropWhile_eq_nil_iff.mpr h]
    rfl

/-- Blanks in front of a text. -/
theorem trimChars_append_right {front : List Char} (hfront : ∀ c ∈ front, isBlank c = true)
    (cs : List Char) : trimChars (front ++ cs) = trimChars cs := by
  rw [trimChars, List.dropWhile_append_of_pos hfront, trimChars]

/-- Blanks behind a text. -/
theorem trimChars_append_left {back : List Char} (hback : ∀ c ∈ back, isBlank c = true)
    (cs : List Char) : trimChars (cs ++ back) = trimChars cs := by
  induction back generalizing cs with
  | nil => rw [List.append_nil]
  | cons c rest ih =>
      rw [List.append_cons, ih (fun b hb => hback b (List.mem_cons_of_mem c hb)),
        trimChars_concat (hback c List.mem_cons_self)]

end Intake.Text
