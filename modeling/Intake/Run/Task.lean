import Intake.Run.Work

/-!
# Documents in work

The work on a document stands still wherever it has to wait for the source to answer, and
work on other documents may go on meanwhile. Between two such places it goes on without
interruption. A task is a document with the place where its work stands; a task that is
carried on alone comes to the same end as the work in one piece.
-/

namespace Intake

open Files

inductive Task (σ : Type) where
  | fresh (d : Document σ)
  | downloading (d : Document σ)
  /-- The content is staged, and a probe has to find its window. -/
  | probing (d : Document σ)

inductive Progress (σ : Type) where
  | waiting (t : Task σ)
  | ended (ending : Ending Outcome)

namespace Task

variable {σ : Type}

def document : Task σ → Document σ
  | .fresh d | .downloading d | .probing d => d

/-- The number of steps that are left at most. -/
def left : Task σ → Nat
  | .fresh _ => 3
  | .downloading _ => 2
  | .probing _ => 1

def finish (d : Document σ) (attempt : Ending (Except Fault Nat)) (w : World σ) :
    Progress σ × World σ :=
  let (ending, files) := d.conclude attempt w.files
  (.ended ending, { w with files := files })

def deliver (plan : Plan) (d : Document σ) (window : Time.Window) (w : World σ) :
    Progress σ × World σ :=
  let (attempt, files) := d.convert plan window w.files
  finish d attempt { w with files := files }

def proceed (plan : Plan) (d : Document σ) (w : World σ) : Progress σ × World σ :=
  match d.window with
  | some window => deliver plan d window w
  | none => (.waiting (.probing d), w)

/-- Carries a task on to the next place where it waits, or to its end. -/
def step (plan : Plan) (w : World σ) : Task σ → Progress σ × World σ
  | .fresh d =>
    if d.isFinished plan w.files then
      (.ended (.finished (.skipped d.locator)), { w with files := d.cleanUp w.files })
    else if d.isStaged w.files then proceed plan d.held w
    else (.waiting (.downloading d), w)
  | .downloading d =>
    let (answer, remote) := d.source.download w.remote
    match d.receive w.files answer with
    | (.error f, d, files) => finish d (.finished (.error f)) ⟨files, remote⟩
    | (.ok (), d, files) => proceed plan d ⟨files, remote⟩
  | .probing d =>
    let (answer, remote) := d.source.probe w.remote
    match d.learn answer with
    | (.error f, d) => finish d (.finished (.error f)) { w with remote := remote }
    | (.ok (), d) => deliver plan d (d.window.getD .empty) { w with remote := remote }

/-- Cleans up after a task that is given up. There is nothing to clean up before it began. -/
def abandon (fs : FileSystem) : Task σ → FileSystem
  | .fresh _ => fs
  | .downloading d | .probing d => d.cleanUp fs

theorem finish_ne_waiting {d : Document σ} {attempt : Ending (Except Fault Nat)} {w w' : World σ}
    {t : Task σ} : finish d attempt w ≠ (.waiting t, w') := by
  simp [finish]

theorem deliver_ne_waiting {plan : Plan} {d : Document σ} {window : Time.Window} {w w' : World σ}
    {t : Task σ} : deliver plan d window w ≠ (.waiting t, w') :=
  finish_ne_waiting

theorem left_proceed {plan : Plan} {d : Document σ} {w w' : World σ} {t : Task σ}
    (h : proceed plan d w = (.waiting t, w')) : t.left = 1 := by
  unfold proceed at h
  split at h
  · exact absurd h deliver_ne_waiting
  · cases h
    rfl

/-- Each step brings a task nearer to its end. -/
theorem left_step {plan : Plan} {w w' : World σ} {t t' : Task σ}
    (h : t.step plan w = (.waiting t', w')) : t'.left < t.left := by
  cases t with
  | fresh d =>
    simp only [step] at h
    split at h
    · cases h
    · split at h
      · show t'.left < 3
        exact left_proceed h ▸ Nat.one_lt_succ_succ 1
      · cases h
        simp [left]
  | downloading d =>
    simp only [step] at h
    split at h
    · exact absurd h finish_ne_waiting
    · show t'.left < 2
      exact left_proceed h ▸ Nat.one_lt_succ_succ 0
  | probing d =>
    simp only [step] at h
    split at h
    · exact absurd h finish_ne_waiting
    · exact absurd h deliver_ne_waiting

end Task

end Intake
