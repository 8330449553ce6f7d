import Intake.Run.Task

/-!
# Documents side by side

A queue holds the documents of a run that are not finished: some tasks are active, up to a
bound, and the other documents wait until an active task ends. Which of the active tasks
goes on next is up to a schedule; nothing is assumed of it. A processor that breaks down
ends the whole run, and the other tasks that had begun are cleaned up.
-/

namespace Intake

open Files

/-- Which task goes on at each moment, counted from the first active one and around. -/
abbrev Schedule := Nat → Nat

/-- Always the first one, so that documents are worked on one after the other. -/
def Schedule.inOrder : Schedule := fun _ => 0

structure Queue (σ : Type) where
  active : List (Task σ)
  waiting : List (Document σ)

namespace Queue

variable {σ : Type}

def ofDocuments (ds : List (Document σ)) : Queue σ := ⟨[], ds⟩

/-- Takes up documents in their order, until as many tasks are active as may be. -/
def refill (q : Queue σ) (bound : Nat) : Queue σ :=
  let free := bound - q.active.length
  ⟨q.active ++ (q.waiting.take free).map .fresh, q.waiting.drop free⟩

/-- The active task whose turn it is, with the tasks before and after it. -/
def turn (q : Queue σ) (k : Nat) : Option (List (Task σ) × Task σ × List (Task σ)) :=
  let place := k % q.active.length
  match q.active.drop place with
  | [] => none
  | t :: after => some (q.active.take place, t, after)

def leftIn (ts : List (Task σ)) : Nat := ts.foldr (fun t n => t.left + n) 0

def left (q : Queue σ) : Nat := leftIn q.active + 3 * q.waiting.length

/-- Cleans up after tasks that are given up. -/
def abandonAll (fs : FileSystem) (ts : List (Task σ)) : FileSystem :=
  ts.foldl (fun fs t => t.abandon fs) fs

theorem leftIn_append (ts us : List (Task σ)) : leftIn (ts ++ us) = leftIn ts + leftIn us := by
  induction ts with
  | nil => simp [leftIn]
  | cons t ts ih =>
    simp only [leftIn, List.cons_append, List.foldr_cons] at ih ⊢
    omega

theorem leftIn_cons (t : Task σ) (ts : List (Task σ)) : leftIn (t :: ts) = t.left + leftIn ts := rfl

theorem leftIn_fresh (ds : List (Document σ)) : leftIn (ds.map .fresh) = 3 * ds.length := by
  induction ds with
  | nil => rfl
  | cons d ds ih =>
    simp only [List.map_cons, leftIn_cons, ih, Task.left, List.length_cons]
    omega

theorem left_refill (q : Queue σ) (bound : Nat) : (q.refill bound).left = q.left := by
  simp only [refill, left, leftIn_append, leftIn_fresh, List.length_take, List.length_drop]
  omega

theorem leftIn_turn {q : Queue σ} {k : Nat} {before after : List (Task σ)} {t : Task σ}
    (h : q.turn k = some (before, t, after)) :
    leftIn q.active = leftIn before + (t.left + leftIn after) := by
  simp only [turn] at h
  split at h
  · cases h
  · next hdrop =>
    cases h
    rw [← leftIn_cons, ← hdrop, ← leftIn_append, List.take_append_drop]

theorem one_le_left (t : Task σ) : 1 ≤ t.left := by
  cases t <;> simp [Task.left]

/-- Carries the tasks on, as the schedule says from a moment on, until all are finished; gives the
outcomes in the order in which the tasks end. -/
def run (plan : Plan) (bound : Nat) (schedule : Schedule) (moment : Nat) (q : Queue σ)
    (w : World σ) : Ending (List Outcome) × World σ :=
  match _h : (q.refill bound).turn (schedule moment) with
  | none => (.finished [], w)
  | some (before, t, after) =>
    let waiting := (q.refill bound).waiting
    match _hstep : t.step plan w with
    | (.waiting t', w) =>
      run plan bound schedule (moment + 1) ⟨before ++ t' :: after, waiting⟩ w
    | (.ended (.finished outcome), w) =>
      let (ending, w) := run plan bound schedule (moment + 1) ⟨before ++ after, waiting⟩ w
      (ending.map (outcome :: ·), w)
    | (.ended (.brokeDown message), w) =>
      (.brokeDown message, { w with files := abandonAll w.files (before ++ after) })
termination_by q.left
decreasing_by
  · have hstep := Task.left_step _hstep
    have hturn := leftIn_turn _h
    have hrefill := left_refill q bound
    simp only [left, leftIn_append, leftIn_cons] at hrefill ⊢
    omega
  · have hpos := one_le_left t
    have hturn := leftIn_turn _h
    have hrefill := left_refill q bound
    simp only [left, leftIn_append] at hrefill ⊢
    omega

end Queue

end Intake
