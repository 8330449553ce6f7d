/-!
# Splitting at a character

The pieces of a text between the occurrences of a character. There is one piece more
than there are occurrences, and joining the pieces gives the text again.
-/

namespace Intake.Text

/-- The pieces between the occurrences of `mark`. -/
def splitAt (mark : Char) : List Char → List (List Char)
  | [] => [[]]
  | c :: rest =>
    match splitAt mark rest with
    | [] => [[c]]
    | piece :: pieces => if c = mark then [] :: piece :: pieces else (c :: piece) :: pieces

theorem splitAt_ne_nil (mark : Char) (cs : List Char) : splitAt mark cs ≠ [] := by
  cases cs with
  | nil => simp [splitAt]
  | cons c rest => unfold splitAt; split <;> (try split) <;> simp

theorem intercalate_splitAt (mark : Char) (cs : List Char) :
    [mark].intercalate (splitAt mark cs) = cs := by
  induction cs with
  | nil => simp [splitAt, List.intercalate]
  | cons c rest ih =>
    unfold splitAt
    split
    · next h => exact absurd h (splitAt_ne_nil mark rest)
    · next piece pieces h =>
      rw [h] at ih
      split
      · next hc => subst hc; simp [List.intercalate, List.intersperse] at ih ⊢; exact ih
      · cases pieces <;> simp_all [List.intercalate, List.intersperse]

end Intake.Text
