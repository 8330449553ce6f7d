import Intake.Proofs.Files.Changes
import Intake.Run.Runner
import Mathlib.Logic.Relation

/-!
# Moments of a run

Between two steps a run is at a moment: some tasks are active, other documents wait, and
some outcomes are there. One relation says what may happen next, without a schedule. A run
on any schedule goes through moments that follow each other in this way, so what each of
these changes keeps holds at every moment of every run.
-/

namespace Intake

open Files

/-! ## The turns of a queue -/

namespace Queue

variable {σ : Type} {plan : Plan} {bound : Nat} {schedule : Schedule} {moment : Nat} {q : Queue σ}
  {w w' : World σ} {before after : List (Task σ)} {t t' : Task σ}

theorem run_of_none (hturn : (q.refill bound).turn (schedule moment) = none) :
    q.run plan bound schedule moment w = (.finished [], w) := by
  rw [run, hturn]

variable (hturn : (q.refill bound).turn (schedule moment) = some (before, t, after))

include hturn

theorem run_of_waiting (hstep : t.step plan w = (.waiting t', w')) :
    q.run plan bound schedule moment w =
      run plan bound schedule (moment + 1) ⟨before ++ t' :: after, (q.refill bound).waiting⟩
        w' := by
  rw [run, hturn]
  simp only
  rw [hstep]

theorem run_of_finished {outcome : Outcome}
    (hstep : t.step plan w = (.ended (.finished outcome), w')) :
    q.run plan bound schedule moment w =
      ((run plan bound schedule (moment + 1) ⟨before ++ after, (q.refill bound).waiting⟩
          w').1.map (outcome :: ·),
        (run plan bound schedule (moment + 1) ⟨before ++ after, (q.refill bound).waiting⟩
          w').2) := by
  rw [run, hturn]
  simp only
  rw [hstep]

theorem run_of_brokeDown {message : String}
    (hstep : t.step plan w = (.ended (.brokeDown message), w')) :
    q.run plan bound schedule moment w =
      (.brokeDown message, { w' with files := abandonAll w'.files (before ++ after) }) := by
  rw [run, hturn]
  simp only
  rw [hstep]

end Queue

structure Moment (σ : Type) where
  active : List (Task σ)
  waiting : List (Document σ)
  world : World σ
  /-- The outcomes so far, the first one first. -/
  outcomes : List Outcome

namespace Moment

variable {σ : Type} {plan : Plan} {bound : Nat}

/-- What may happen next: the next document is taken up where there is room for it, or one
of the active tasks is carried on to where it waits again, or to its end. -/
inductive Next (plan : Plan) (bound : Nat) : Moment σ → Moment σ → Prop where
  | takeUp {active : List (Task σ)} {d : Document σ} {waiting : List (Document σ)}
      {w : World σ} {outcomes : List Outcome} :
      active.length < bound →
        Next plan bound ⟨active, d :: waiting, w, outcomes⟩
          ⟨active ++ [.fresh d], waiting, w, outcomes⟩
  | goOn {before after : List (Task σ)} {t t' : Task σ} {waiting : List (Document σ)}
      {w w' : World σ} {outcomes : List Outcome} :
      t.step plan w = (.waiting t', w') →
        Next plan bound ⟨before ++ t :: after, waiting, w, outcomes⟩
          ⟨before ++ t' :: after, waiting, w', outcomes⟩
  | finish {before after : List (Task σ)} {t : Task σ} {waiting : List (Document σ)}
      {w w' : World σ} {outcomes : List Outcome} {outcome : Outcome} :
      t.step plan w = (.ended (.finished outcome), w') →
        Next plan bound ⟨before ++ t :: after, waiting, w, outcomes⟩
          ⟨before ++ after, waiting, w', outcomes ++ [outcome]⟩

theorem mem_turn {front back : List (Task σ)} {t t₀ : Task σ} :
    t₀ ∈ front ++ t :: back ↔ t₀ = t ∨ t₀ ∈ front ++ back :=
  List.perm_middle.mem_iff.trans List.mem_cons

/-- What may happen in any number of changes. -/
abbrev Leads (plan : Plan) (bound : Nat) : Moment σ → Moment σ → Prop :=
  Relation.ReflTransGen (Next plan bound)

theorem Leads.invariant {P : Moment σ → Prop}
    (hstep : ∀ m m', Next plan bound m m' → P m → P m') {m m' : Moment σ}
    (h : Leads plan bound m m') (hm : P m) : P m' := by
  induction h with
  | refl => exact hm
  | tail _ hnext ih => exact hstep _ _ hnext ih

/-! ## Runs go through moments -/

theorem leads_takeUp {waiting : List (Document σ)} {w : World σ} {outcomes : List Outcome}
    (free : Nat) :
    ∀ active : List (Task σ), active.length + free ≤ bound →
      Leads plan bound ⟨active, waiting, w, outcomes⟩
        ⟨active ++ (waiting.take free).map .fresh, waiting.drop free, w, outcomes⟩ := by
  induction free generalizing waiting with
  | zero =>
      intro active _
      simpa using Relation.ReflTransGen.refl
  | succ free ih =>
      intro active hroom
      cases waiting with
      | nil => simpa using Relation.ReflTransGen.refl
      | cons d rest =>
          refine .head (.takeUp (by omega)) ?_
          have hrest := @ih rest (active ++ [.fresh d]) (by simp; omega)
          simpa using hrest

theorem leads_refill (plan : Plan) (bound : Nat) (q : Queue σ) (w : World σ)
    (outcomes : List Outcome) :
    Leads plan bound ⟨q.active, q.waiting, w, outcomes⟩
      ⟨(q.refill bound).active, (q.refill bound).waiting, w, outcomes⟩ := by
  by_cases hroom : q.active.length ≤ bound
  · exact leads_takeUp (bound - q.active.length) q.active (by omega)
  · have hnone : bound - q.active.length = 0 := by omega
    simpa [Queue.refill, hnone] using Relation.ReflTransGen.refl

theorem active_of_turn {q : Queue σ} {k : Nat} {before after : List (Task σ)} {t : Task σ}
    (h : q.turn k = some (before, t, after)) : q.active = before ++ t :: after := by
  simp only [Queue.turn] at h
  split at h
  · cases h
  · next hdrop =>
      cases h
      rw [← hdrop, List.take_append_drop]

theorem active_of_turn_none {q : Queue σ} {k : Nat} (h : q.turn k = none) :
    q.active = [] := by
  simp only [Queue.turn] at h
  split at h
  · next hdrop =>
      cases hactive : q.active with
      | nil => rfl
      | cons t rest =>
          have hplace : k % q.active.length < q.active.length :=
            Nat.mod_lt k (by rw [hactive]; exact Nat.succ_pos _)
          rw [List.drop_eq_nil_iff] at hdrop
          omega
  · cases h

theorem waiting_of_refill {q : Queue σ} (hbound : 1 ≤ bound)
    (h : (q.refill bound).active = []) : (q.refill bound).waiting = [] := by
  obtain ⟨hactive, htaken⟩ := List.append_eq_nil_iff.mp h
  rw [List.map_eq_nil_iff, hactive, List.length_nil, List.take_eq_nil_iff] at htaken
  rw [Queue.refill]
  rcases htaken with hzero | hnil
  · omega
  · simp [hnil]

/-- How a run ends: with no document left, or in a moment in which the processor breaks down
for one of the active tasks and the other ones are given up. -/
inductive EndsAs (plan : Plan) (bound : Nat) (m : Moment σ) :
    Ending (List Outcome) × World σ → Prop where
  | finished {outcomes : List Outcome} {w : World σ} :
      Leads plan bound m ⟨[], [], w, m.outcomes ++ outcomes⟩ →
        EndsAs plan bound m (.finished outcomes, w)
  | brokeDown {before after : List (Task σ)} {t : Task σ} {waiting : List (Document σ)}
      {w w' : World σ} {outcomes : List Outcome} {message : String} :
      Leads plan bound m ⟨before ++ t :: after, waiting, w, outcomes⟩ →
      t.step plan w = (.ended (.brokeDown message), w') →
        EndsAs plan bound m
          (.brokeDown message, { w' with files := Queue.abandonAll w'.files (before ++ after) })

theorem EndsAs.of_leads {m m' : Moment σ} {r : Ending (List Outcome) × World σ}
    (h : Leads plan bound m m') (houtcomes : m'.outcomes = m.outcomes)
    (hr : EndsAs plan bound m' r) : EndsAs plan bound m r := by
  cases hr with
  | finished hleads => exact .finished (h.trans (houtcomes ▸ hleads))
  | brokeDown hleads hstep => exact .brokeDown (h.trans hleads) hstep

/-- **A run on any schedule goes through moments that follow each other.** -/
theorem endsAs_run (hbound : 1 ≤ bound) (schedule : Schedule) (moment : Nat) (q : Queue σ)
    (w : World σ) :
    ∀ outcomes, EndsAs plan bound ⟨q.active, q.waiting, w, outcomes⟩
      (q.run plan bound schedule moment w) := by
  -- by the turns of the queue: none is left, a task waits again, ends, or breaks down
  induction moment, q, w using Queue.run.induct plan bound schedule with
  | case1 moment q w hturn =>
      intro outcomes
      have hactive := active_of_turn_none hturn
      have hrefill := leads_refill plan bound q w outcomes
      rw [Queue.run_of_none hturn]
      rw [hactive, waiting_of_refill hbound hactive] at hrefill
      exact .finished (by simpa using hrefill)
  | case2 moment q w before t after hturn waiting t' w' hstep ih =>
      intro outcomes
      have hrefill := leads_refill plan bound q w outcomes
      rw [active_of_turn hturn] at hrefill
      rw [Queue.run_of_waiting hturn hstep]
      exact (ih outcomes).of_leads (hrefill.tail (.goOn hstep)) rfl
  | case3 moment q w before t after hturn waiting outcome w' hstep ending w'' hrun ih =>
      intro outcomes
      have hrefill := leads_refill plan bound q w outcomes
      rw [active_of_turn hturn] at hrefill
      have hleads := hrefill.tail (.finish hstep)
      have hends := ih (outcomes ++ [outcome])
      rw [hrun] at hends
      rw [Queue.run_of_finished hturn hstep, hrun]
      cases hends with
      | finished hrest =>
          refine .finished (hleads.trans ?_)
          simpa using hrest
      | brokeDown hrest hbroke => exact .brokeDown (hleads.trans hrest) hbroke
  | case4 moment q w before t after hturn message w' hstep =>
      intro outcomes
      have hrefill := leads_refill plan bound q w outcomes
      rw [active_of_turn hturn] at hrefill
      rw [Queue.run_of_brokeDown hturn hstep]
      exact .brokeDown hrefill hstep

end Moment

/-! ## Where a run begins -/

namespace Connector

variable {σ : Type}

/-- The documents of a connector, none if they cannot be listed. -/
def enumerated (c : Connector σ) (remote : σ) : List (Document σ) :=
  match (c.documents remote).1 with
  | .ok ds => ds
  | .error _ => []

/-- The moment in which all documents wait, if a run gets there. -/
def start (c : Connector σ) (w : World σ) : Option (Moment σ) :=
  match c.prepare w.files with
  | (.error _, _) => none
  | (.ok (), files) =>
    match c.documents w.remote with
    | (.error _, _) => none
    | (.ok ds, remote) => some ⟨[], ds, ⟨files, remote⟩, []⟩

/-- Each document that is enumerated is the one of a source that is listed. -/
theorem exists_source {c : Connector σ} {remote : σ} {d : Document σ}
    (h : d ∈ c.enumerated remote) :
    ∃ sources, (c.list remote).1 = .ok sources ∧ ∃ s ∈ sources, d = .ofSource c.settings s := by
  rw [enumerated, documents] at h
  split at h
  · next ds hds =>
      split at hds
      · next sources remote' hlist =>
          cases hds
          obtain ⟨source, hsource, rfl⟩ := List.mem_map.mp h
          exact ⟨sources, congrArg Prod.fst hlist, source, hsource, rfl⟩
      · cases hds
  · cases h

theorem settings_of_enumerated {c : Connector σ} {remote : σ} {d : Document σ}
    (h : d ∈ c.enumerated remote) : d.settings = c.settings := by
  obtain ⟨_, _, _, _, rfl⟩ := exists_source h
  rfl

theorem prepare_eq (c : Connector σ) (fs : FileSystem) :
    c.prepare fs =
      (((fs.makeDirs c.settings.downloadDir).1.mapError Fault.ofFile),
        (fs.makeDirs c.settings.downloadDir).2) := by
  rw [prepare]
  cases fs.makeDirs c.settings.downloadDir with
  | mk r made => cases r <;> rfl

theorem touched_prepare (c : Connector σ) (fs : FileSystem) :
    Touched ∅ (fs.wayTo c.settings.downloadDir) fs (c.prepare fs).2 := by
  rw [prepare_eq]
  exact fs.touched_makeDirs c.settings.downloadDir

theorem ready_of_prepare {c : Connector σ} {fs : FileSystem} (h : (c.prepare fs).1 = .ok ()) :
    (c.prepare fs).2.Ready c.settings.downloadDir := by
  rw [prepare_eq] at h ⊢
  cases hmade : fs.makeDirs c.settings.downloadDir with
  | mk r made =>
      rw [hmade] at h
      cases r with
      | error e => cases h
      | ok u => exact FileSystem.isDir_of_makeDirs hmade

theorem start_eq_some {c : Connector σ} {w : World σ} {m : Moment σ} (h : c.start w = some m) :
    (c.prepare w.files).1 = .ok () ∧ m.active = [] ∧ m.waiting = c.enumerated w.remote ∧
      m.world.files = (c.prepare w.files).2 ∧ m.world.remote = (c.documents w.remote).2 ∧
      m.outcomes = [] ∧ (c.documents w.remote).1 = .ok m.waiting := by
  rw [start] at h
  split at h
  · cases h
  · next files hfiles =>
      split at h
      · cases h
      · next ds remote hds =>
          cases h
          rw [hfiles, enumerated, hds]
          exact ⟨rfl, rfl, rfl, rfl, rfl, rfl, rfl⟩

/-- A run fails before any work with no file changed, or works on its documents to an end. -/
theorem workOn_cases (c : Connector σ) (processor : Processor) (conditions : Conditions)
    (schedule : Schedule) (w : World σ) :
    (c.start w = none ∧
        (∃ f, (c.workOn processor conditions schedule w).1 = .finished (.error f)) ∧
        (c.workOn processor conditions schedule w).2.files = (c.prepare w.files).2) ∨
      ∃ m ending w', c.start w = some m ∧
        Moment.EndsAs (c.plan processor conditions) c.bound m (ending, w') ∧
        c.workOn processor conditions schedule w =
          (ending.map fun outcomes => .ok (.ofOutcomes outcomes), w') := by
  rw [workOn, start]
  cases c.prepare w.files with
  | mk r files =>
      cases r with
      | error f => exact Or.inl ⟨rfl, ⟨f, rfl⟩, rfl⟩
      | ok u =>
          simp only
          cases c.documents w.remote with
          | mk r remote =>
              cases r with
              | error f => exact Or.inl ⟨rfl, ⟨f, rfl⟩, rfl⟩
              | ok ds =>
                  right
                  exact ⟨_, _, _, rfl, Moment.endsAs_run (Nat.le_max_left 1 _) schedule 0
                    (Queue.ofDocuments ds) ⟨files, remote⟩ [], rfl⟩

end Connector

/-! ## Steady sources -/

/-- A source that gives the same answers whenever it is asked, and changes nothing. -/
def Source.steady (locator : String) (download : Except Fault Download) : Source Unit :=
  ⟨locator, "txt", fun _ => (.ok .absent, ()), fun _ => (download, ())⟩

/-- A connector that lists some sources. -/
def Connector.steady (s : Settings) (sources : List (Source Unit)) : Connector Unit :=
  ⟨"steady", s, fun _ => (.ok sources, ())⟩

end Intake
