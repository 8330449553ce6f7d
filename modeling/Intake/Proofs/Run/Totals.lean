import Intake.Run.Outcome
import Mathlib.Algebra.GroupWithZero.Nat

/-!
# Totals and outcomes

The totals of a run count each outcome once, whatever the order in which the outcomes came.
-/

namespace Intake

namespace Outcome

def locator : Outcome → String
  | .processed locator _ | .skipped locator | .failed locator _ => locator

def isProcessed : Outcome → Bool
  | .processed _ _ => true
  | .skipped _ | .failed _ _ => false

def isSkipped : Outcome → Bool
  | .skipped _ => true
  | .processed _ _ | .failed _ _ => false

/-- The number of elements that were made. -/
def elements : Outcome → Nat
  | .processed _ elements => elements
  | .skipped _ | .failed _ _ => 0

/-- The entry in the totals, where a document failed. -/
def failure? : Outcome → Option (String × Fault)
  | .failed locator f => some (locator, f)
  | .processed _ _ | .skipped _ => none

theorem locator_ofAttempt (locator : String) (attempt : Except Fault Nat) :
    (ofAttempt locator attempt).locator = locator := by
  cases attempt <;> rfl

end Outcome

namespace Summary

/-- Totals that count each of some outcomes once. -/
structure Counts (s : Summary) (outcomes : List Outcome) : Prop where
  all : s.processed + s.skipped + s.failed = outcomes.length
  processed : s.processed = outcomes.countP Outcome.isProcessed
  skipped : s.skipped = outcomes.countP Outcome.isSkipped
  elements : s.elements = (outcomes.map Outcome.elements).sum
  failures : s.failures.Perm (outcomes.filterMap Outcome.failure?)

theorem counts_empty : empty.Counts [] := ⟨rfl, rfl, rfl, rfl, .refl _⟩

theorem Counts.record {s : Summary} {outcomes : List Outcome} (h : s.Counts outcomes)
    (o : Outcome) : (s.record o).Counts (outcomes ++ [o]) where
  all := by
    have hall := h.all
    rw [List.length_append, List.length_singleton, ← hall]
    cases o <;> simp only [Summary.record, failed, List.length_append, List.length_singleton] <;>
      omega
  processed := by
    rw [List.countP_append, ← h.processed]
    cases o <;> rfl
  skipped := by
    rw [List.countP_append, ← h.skipped]
    cases o <;> rfl
  elements := by
    rw [List.map_append, List.sum_append, ← h.elements]
    cases o <;> rfl
  failures := by
    rw [List.filterMap_append]
    cases o with
    | processed locator elements =>
        simpa [Summary.record, Outcome.failure?, List.filterMap_cons] using h.failures
    | skipped locator =>
        simpa [Summary.record, Outcome.failure?, List.filterMap_cons] using h.failures
    | failed locator f => exact h.failures.append_right [(locator, f)]

theorem counts_foldl {s : Summary} (outcomes : List Outcome) :
    ∀ {before : List Outcome}, s.Counts before →
      (outcomes.foldl record s).Counts (before ++ outcomes) := by
  induction outcomes generalizing s with
  | nil =>
      intro before h
      rwa [List.append_nil]
  | cons o rest ih =>
      intro before h
      have hrest := ih (h.record o)
      rwa [List.append_assoc] at hrest

/-- **The totals count each outcome once.** -/
theorem counts_ofOutcomes (outcomes : List Outcome) : (ofOutcomes outcomes).Counts outcomes :=
  counts_foldl outcomes counts_empty

theorem Counts.perm {s : Summary} {outcomes outcomes' : List Outcome} (h : s.Counts outcomes)
    (hperm : outcomes.Perm outcomes') : s.Counts outcomes' where
  all := h.all.trans hperm.length_eq
  processed := h.processed.trans (hperm.countP_eq _)
  skipped := h.skipped.trans (hperm.countP_eq _)
  elements := h.elements.trans (hperm.map _).sum_nat
  failures := h.failures.trans (hperm.filterMap _)

end Summary

end Intake
