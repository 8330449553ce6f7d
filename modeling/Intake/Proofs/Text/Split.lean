import Intake.Text.Split

/-!
# Pieces of a text

A text is cut at one occurrence of a character after the other: what stands before an occurrence
and what stands after it are cut on their own. The pieces hold all characters of the text but the
one at which it is cut.
-/

namespace Intake.Text

theorem splitAt_append (mark : Char) (front back : List Char) :
    splitAt mark (front ++ mark :: back) = splitAt mark front ++ splitAt mark back := by
  induction front with
  | nil =>
      rw [List.nil_append]
      cases h : splitAt mark back with
      | nil => exact absurd h (splitAt_ne_nil mark back)
      | cons piece pieces => simp [splitAt, h]
  | cons c front ih =>
      rw [List.cons_append, splitAt, splitAt, ih]
      cases h : splitAt mark front with
      | nil => exact absurd h (splitAt_ne_nil mark front)
      | cons piece pieces =>
          simp only [List.cons_append]
          split <;> rfl

theorem splitAt_of_notMem {mark : Char} {cs : List Char} (h : mark ∉ cs) :
    splitAt mark cs = [cs] := by
  induction cs with
  | nil => rfl
  | cons c rest ih =>
      have hc : c ≠ mark := fun heq => h (heq ▸ List.mem_cons_self)
      rw [splitAt, ih fun hrest => h (List.mem_cons_of_mem _ hrest)]
      simp [hc]

/-- Pieces without the character are got back from the text that has it between them. -/
theorem splitAt_intercalate {mark : Char} {pieces : List (List Char)} (hne : pieces ≠ [])
    (h : ∀ piece ∈ pieces, mark ∉ piece) : splitAt mark ([mark].intercalate pieces) = pieces := by
  induction pieces with
  | nil => exact absurd rfl hne
  | cons piece rest ih =>
      obtain ⟨hpiece, hrest⟩ := List.forall_mem_cons.mp h
      cases rest with
      | nil =>
          rw [List.intercalate_singleton]
          exact splitAt_of_notMem hpiece
      | cons next rest =>
          rw [List.intercalate_cons_cons, List.append_assoc, List.singleton_append, splitAt_append,
            splitAt_of_notMem hpiece, ih (List.cons_ne_nil next rest) hrest]
          rfl

/-- A piece stands at an end of the text or at the character. -/
theorem exists_of_mem_intercalate (mark : Char) {pieces : List (List Char)} {piece : List Char}
    (h : piece ∈ pieces) : ∃ front back, [mark].intercalate pieces = front ++ (piece ++ back) ∧
      (front = [] ∨ ∃ before, front = before ++ [mark]) ∧
      (back = [] ∨ ∃ after, back = mark :: after) := by
  induction pieces with
  | nil => cases h
  | cons first rest ih =>
      rcases List.mem_cons.mp h with rfl | h
      · cases rest with
        | nil => exact ⟨[], [], by simp, Or.inl rfl, Or.inl rfl⟩
        | cons next rest =>
            exact ⟨[], mark :: [mark].intercalate (next :: rest),
              by simp [List.intercalate_cons_cons], Or.inl rfl, Or.inr ⟨_, rfl⟩⟩
      · obtain ⟨front, back, heq, hfront, hback⟩ := ih h
        obtain ⟨next, rest, rfl⟩ := List.exists_cons_of_ne_nil (List.ne_nil_of_mem h)
        refine ⟨first ++ mark :: front, back, ?_, Or.inr ?_, hback⟩
        · rw [List.intercalate_cons_cons, heq]
          simp
        · rcases hfront with rfl | ⟨before, rfl⟩
          · exact ⟨first, rfl⟩
          · exact ⟨first ++ mark :: before, by simp⟩

theorem exists_of_mem_splitAt {mark : Char} {cs piece : List Char} (h : piece ∈ splitAt mark cs) :
    ∃ front back, cs = front ++ (piece ++ back) ∧
      (front = [] ∨ ∃ before, front = before ++ [mark]) ∧
      (back = [] ∨ ∃ after, back = mark :: after) := by
  have hpieces := exists_of_mem_intercalate mark h
  rw [intercalate_splitAt] at hpieces
  exact hpieces

theorem notMem_of_mem_splitAt {mark : Char} {cs piece : List Char}
    (h : piece ∈ splitAt mark cs) : mark ∉ piece := by
  induction cs generalizing piece with
  | nil =>
      rw [splitAt, List.mem_singleton] at h
      simp [h]
  | cons c rest ih =>
      rw [splitAt] at h
      cases hrest : splitAt mark rest with
      | nil => exact absurd hrest (splitAt_ne_nil mark rest)
      | cons first pieces =>
          rw [hrest] at h ih
          simp only at h
          split at h
          · rcases List.mem_cons.mp h with rfl | h
            · simp
            · exact ih h
          · next hc =>
              rcases List.mem_cons.mp h with rfl | h
              · rw [List.mem_cons]
                rintro (heq | hmem)
                · exact hc heq.symm
                · exact ih List.mem_cons_self hmem
              · exact ih (List.mem_cons_of_mem _ h)

theorem mem_of_mem_splitAt {mark c : Char} {cs piece : List Char}
    (h : piece ∈ splitAt mark cs) (hc : c ∈ piece) : c ∈ cs := by
  induction cs generalizing piece with
  | nil =>
      rw [splitAt, List.mem_singleton] at h
      rw [h] at hc
      cases hc
  | cons first rest ih =>
      rw [splitAt] at h
      cases hrest : splitAt mark rest with
      | nil => exact absurd hrest (splitAt_ne_nil mark rest)
      | cons piece' pieces =>
          rw [hrest] at h ih
          simp only at h
          split at h
          · rcases List.mem_cons.mp h with rfl | h
            · cases hc
            · exact List.mem_cons_of_mem _ (ih h hc)
          · rcases List.mem_cons.mp h with rfl | h
            · rcases List.mem_cons.mp hc with rfl | hc
              · exact List.mem_cons_self
              · exact List.mem_cons_of_mem _ (ih List.mem_cons_self hc)
            · exact List.mem_cons_of_mem _ (ih (List.mem_cons_of_mem _ h) hc)

theorem mem_splitAt_of_mem {mark c : Char} {cs : List Char} (hne : c ≠ mark) (h : c ∈ cs) :
    ∃ piece ∈ splitAt mark cs, c ∈ piece := by
  induction cs with
  | nil => cases h
  | cons first rest ih =>
      rw [splitAt]
      cases hrest : splitAt mark rest with
      | nil => exact absurd hrest (splitAt_ne_nil mark rest)
      | cons piece pieces =>
          rw [hrest] at ih
          simp only
          rcases List.mem_cons.mp h with rfl | h
          · rw [if_neg hne]
            exact ⟨_, List.mem_cons_self, List.mem_cons_self⟩
          · obtain ⟨found, hfound, hc⟩ := ih h
            split
            · exact ⟨found, List.mem_cons_of_mem _ hfound, hc⟩
            · rcases List.mem_cons.mp hfound with rfl | hfound
              · exact ⟨_, List.mem_cons_self, List.mem_cons_of_mem _ hc⟩
              · exact ⟨found, List.mem_cons_of_mem _ hfound, hc⟩

end Intake.Text
