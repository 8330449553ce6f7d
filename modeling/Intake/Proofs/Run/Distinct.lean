import Intake.Run.Distinct
import Mathlib.Data.List.Nodup
import Mathlib.Tactic.SplitIfs

/-!
# The first of each key

Of things with one key the first one stays: that before which there is none with this key. So no key
is left twice, and none is lost.
-/

namespace Intake.Run

variable {α : Type}

theorem nodup_firstsAfter (key : α → String) (seen : List String) (as : List α) :
    ((firstsAfter key seen as).map key).Nodup ∧ ∀ a ∈ firstsAfter key seen as, key a ∉ seen := by
  induction as generalizing seen with
  | nil => exact ⟨List.nodup_nil, fun _ h => nomatch h⟩
  | cons a rest ih =>
      rw [firstsAfter]
      split
      · exact ih seen
      · next hnew =>
          obtain ⟨hnodup, hfresh⟩ := ih (key a :: seen)
          refine ⟨?_, ?_⟩
          · rw [List.map_cons, List.nodup_cons, List.mem_map]
            refine ⟨?_, hnodup⟩
            rintro ⟨b, hb, hkey⟩
            exact hfresh b hb (hkey ▸ List.mem_cons_self)
          · intro b hb
            rcases List.mem_cons.mp hb with rfl | hb
            · exact hnew
            · exact fun hmem => hfresh b hb (List.mem_cons_of_mem _ hmem)

/-- No two of the first things have the same key. -/
theorem nodup_firsts (key : α → String) (as : List α) :
    ((firsts key as).map key).Nodup :=
  (nodup_firstsAfter key [] as).1

/-- The things before which there is none with the same key. -/
def earliest (key : α → String) (as : List α) : List α :=
  (as.zipIdx.filter fun (a, place) => key a ∉ (as.take place).map key).map Prod.fst

/-- Behind some things whose keys have been seen, the things stay that are the first ones with their
keys. -/
theorem firstsAfter_eq (key : α → String) {seen : List String} {front : List α}
    (hseen : ∀ k, k ∈ seen ↔ k ∈ front.map key) (as : List α) :
    firstsAfter key seen as = ((as.zipIdx front.length).filter fun (a, place) =>
      key a ∉ ((front ++ as).take place).map key).map Prod.fst := by
  induction as generalizing seen front with
  | nil => rfl
  | cons a rest ih =>
      have hplace : (front ++ a :: rest).take front.length = front := List.take_left
      have hlater : (front ++ [a]).length = front.length + 1 := List.length_append
      have happend : front ++ a :: rest = (front ++ [a]) ++ rest := List.append_cons front a rest
      rw [firstsAfter, List.zipIdx_cons, List.filter_cons]
      simp only [hplace, ← hseen]
      split_ifs with hold hnew hnew
      · simp [hold] at hnew
      · have hseen' : ∀ k, k ∈ seen ↔ k ∈ (front ++ [a]).map key := by
          intro k
          rw [List.map_append, List.mem_append, ← hseen, List.map_singleton, List.mem_singleton]
          exact ⟨Or.inl, fun h => h.elim id fun heq => heq ▸ hold⟩
        rw [ih hseen', hlater, ← happend]
      · have hseen' : ∀ k, k ∈ key a :: seen ↔ k ∈ (front ++ [a]).map key := by
          intro k
          rw [List.map_append, List.mem_append, ← hseen, List.map_singleton, List.mem_singleton,
            List.mem_cons, or_comm]
        rw [ih hseen', hlater, ← happend, List.map_cons]
      · simp [hold] at hnew

theorem firsts_eq_earliest (key : α → String) (as : List α) :
    firsts key as = earliest key as :=
  have hnone : ∀ k, k ∈ [] ↔ k ∈ ([] : List α).map key := fun _ => Iff.rfl
  firstsAfter_eq key hnone as

theorem firstsAfter_subset (key : α → String) (seen : List String) (as : List α) :
    firstsAfter key seen as ⊆ as := by
  induction as generalizing seen with
  | nil => exact List.Subset.refl []
  | cons a rest ih =>
      rw [firstsAfter]
      split
      · exact List.Subset.trans (ih seen) (List.subset_cons_self a rest)
      · exact List.cons_subset_cons a (ih (key a :: seen))

theorem mem_firstsAfter (key : α → String) {a : α} {as : List α} (ha : a ∈ as) :
    ∀ seen, key a ∈ seen ∨ key a ∈ (firstsAfter key seen as).map key := by
  induction as with
  | nil => cases ha
  | cons b rest ih =>
      intro seen
      rw [firstsAfter]
      rcases List.mem_cons.mp ha with rfl | ha
      · split_ifs with hold
        · exact Or.inl hold
        · exact Or.inr List.mem_cons_self
      · split_ifs with hold
        · exact ih ha seen
        · rw [List.map_cons, List.mem_cons]
          rcases ih ha (key b :: seen) with h | h
          · exact (List.mem_cons.mp h).elim (fun heq => Or.inr (Or.inl heq)) Or.inl
          · exact Or.inr (Or.inr h)

/-- No key is lost. -/
theorem mem_firsts (key : α → String) {a : α} {as : List α} (ha : a ∈ as) :
    key a ∈ (firsts key as).map key :=
  (mem_firstsAfter key ha []).resolve_left List.not_mem_nil

end Intake.Run
