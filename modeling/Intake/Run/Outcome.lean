import Intake.Fault

/-!
# Outcomes

What became of one document, and the totals over all documents of a run. A document that
failed is noted in the totals and does not end the run; a processor that breaks down does.
-/

namespace Intake

inductive Outcome where
  | processed (locator : String) (elements : Nat)
  | skipped (locator : String)
  | failed (locator : String) (fault : Fault)

def Outcome.ofAttempt (locator : String) : Except Fault Nat → Outcome
  | .ok elements => .processed locator elements
  | .error f => .failed locator f

/-- What a computation ends with, in which a processor may break down. -/
inductive Ending (α : Type) where
  | finished (a : α)
  | brokeDown (message : String)

def Ending.map {α β : Type} (f : α → β) : Ending α → Ending β
  | .finished a => .finished (f a)
  | .brokeDown message => .brokeDown message

structure Summary where
  processed : Nat
  skipped : Nat
  elements : Nat
  failures : List (String × Fault)

namespace Summary

def empty : Summary := ⟨0, 0, 0, []⟩

def record (s : Summary) : Outcome → Summary
  | .processed _ elements =>
    { s with processed := s.processed + 1, elements := s.elements + elements }
  | .skipped _ => { s with skipped := s.skipped + 1 }
  | .failed locator f => { s with failures := s.failures ++ [(locator, f)] }

def ofOutcomes (outcomes : List Outcome) : Summary := outcomes.foldl record empty

def failed (s : Summary) : Nat := s.failures.length

def isSuccess (s : Summary) : Bool := s.failures.isEmpty

end Summary

end Intake
