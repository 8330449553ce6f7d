import Intake.Proofs.Run.Effects
import Intake.Proofs.Run.Totals

/-!
# A task by itself

What a task asks of its source, and what comes of it when nothing else goes on. A task that
is carried on alone, step by step, comes to the end that the work on its document comes to
in one piece.
-/

namespace Intake

variable {σ : Type}

/-! ## Requests -/

/-- What a source can be asked. -/
inductive Question where
  | probe
  | download

/-- A question to a source. -/
structure Request (σ : Type) where
  source : Source σ
  question : Question

namespace Request

/-- The state of the remote system after a request. -/
def send (remote : σ) (r : Request σ) : σ :=
  match r.question with
  | .probe => (r.source.probe remote).2
  | .download => (r.source.download remote).2

/-- The state of the remote system after some requests, one after the other. -/
def sendAll (remote : σ) (rs : List (Request σ)) : σ := rs.foldl send remote

theorem sendAll_append (remote : σ) (rs rs' : List (Request σ)) :
    sendAll remote (rs ++ rs') = sendAll (sendAll remote rs) rs' :=
  List.foldl_append

/-- Those among some requests that go to the source with a locator. -/
def own (locator : String) (rs : List (Request σ)) : List (Request σ) :=
  rs.filter (·.source.locator = locator)

theorem own_append (locator : String) (rs rs' : List (Request σ)) :
    own locator (rs ++ rs') = own locator rs ++ own locator rs' :=
  List.filter_append _ _

theorem own_own (locator : String) (rs : List (Request σ)) :
    own locator (own locator rs) = own locator rs := by
  rw [own, own, List.filter_filter]
  simp

theorem own_eq_self {locator : String} {rs : List (Request σ)}
    (h : ∀ r ∈ rs, r.source.locator = locator) : own locator rs = rs :=
  List.filter_eq_self.mpr (by simpa using h)

theorem own_eq_nil {locator : String} {rs : List (Request σ)}
    (h : ∀ r ∈ rs, r.source.locator ≠ locator) : own locator rs = [] :=
  List.filter_eq_nil_iff.mpr (by simpa using h)

end Request

/-- What a source would answer in a state of the remote system. -/
def Source.answers (s : Source σ) (remote : σ) : Except Fault Probe × Except Fault Download :=
  ((s.probe remote).1, (s.download remote).1)

/-- Whether the answers of each source depend only on the requests that were made to it. -/
def Independent (sources : List (Source σ)) (remote : σ) : Prop :=
  ∀ s ∈ sources, ∀ rs rs' : List (Request σ),
    (∀ r ∈ rs, r.source ∈ sources) → (∀ r ∈ rs', r.source ∈ sources) →
    Request.own s.locator rs = Request.own s.locator rs' →
      s.answers (Request.sendAll remote rs) = s.answers (Request.sendAll remote rs')

namespace Task

/-- What a task asks in its next step. -/
def requests : Task σ → List (Request σ)
  | .fresh _ => []
  | .downloading d => [⟨d.source, .download⟩]
  | .probing d => [⟨d.source, .probe⟩]

theorem source_of_requests {t : Task σ} {r : Request σ} (h : r ∈ t.requests) :
    r.source = t.document.source := by
  cases t with
  | fresh d => cases h
  | downloading d => rw [List.mem_singleton.mp h]; rfl
  | probing d => rw [List.mem_singleton.mp h]; rfl

theorem remote_proceed (plan : Plan) (d : Document σ) (w : World σ) :
    (proceed plan d w).2.remote = w.remote := by
  rw [proceed]
  split <;> rfl

/-- A step changes the remote system by its requests alone. -/
theorem remote_step (plan : Plan) (t : Task σ) (w : World σ) :
    (t.step plan w).2.remote = Request.sendAll w.remote t.requests := by
  cases t with
  | fresh d =>
      rw [step]
      split
      · rfl
      · split
        · exact remote_proceed plan d.held w
        · rfl
  | downloading d =>
      rw [step]
      simp only
      split
      · rfl
      · exact remote_proceed _ _ _
  | probing d =>
      rw [step]
      simp only
      split <;> rfl

theorem locator_of_map {locator : String} {attempt : Ending (Except Fault Nat)} {outcome : Outcome}
    (h : attempt.map (.ofAttempt locator) = .finished outcome) : outcome.locator = locator := by
  cases attempt with
  | finished a =>
      cases h
      exact Outcome.locator_ofAttempt locator a
  | brokeDown message => cases h

theorem locator_of_proceed {plan : Plan} {d : Document σ} {w w' : World σ} {outcome : Outcome}
    (h : proceed plan d w = (.ended (.finished outcome), w')) : outcome.locator = d.locator := by
  rw [proceed] at h
  cases hwindow : d.window with
  | none =>
      rw [hwindow] at h
      cases h
  | some window =>
      simp only [hwindow, deliver_eq] at h
      exact locator_of_map (Progress.ended.inj (Prod.ext_iff.mp h).1)

/-- A task that ends has an outcome of its own document. -/
theorem locator_of_step {plan : Plan} {t : Task σ} {w w' : World σ} {outcome : Outcome}
    (h : t.step plan w = (.ended (.finished outcome), w')) :
    outcome.locator = t.document.locator := by
  cases t with
  | fresh d =>
      rw [step] at h
      split at h
      · cases h
        rfl
      · split at h
        · rw [locator_of_proceed h]
          rfl
        · cases h
  | downloading d =>
      have hakin := d.akin_receive w.files (d.source.download w.remote).1
      rw [step] at h
      simp only at h
      split at h
      · next f d' files hreceive =>
          rw [hreceive] at hakin
          rw [finish_eq] at h
          rw [locator_of_map (Progress.ended.inj (Prod.ext_iff.mp h).1)]
          exact hakin.locator
      · next d' files hreceive =>
          rw [hreceive] at hakin
          rw [locator_of_proceed h]
          exact hakin.locator
  | probing d =>
      have hakin := d.akin_learn (d.source.probe w.remote).1
      rw [step] at h
      simp only at h
      split at h
      · next f d' hlearn =>
          rw [hlearn] at hakin
          rw [finish_eq] at h
          rw [locator_of_map (Progress.ended.inj (Prod.ext_iff.mp h).1)]
          exact hakin.locator
      · next d' hlearn =>
          rw [hlearn] at hakin
          rw [deliver_eq] at h
          rw [locator_of_map (Progress.ended.inj (Prod.ext_iff.mp h).1)]
          exact hakin.locator

/-! ## Carried on alone -/

/-- Carries a task on to its end, with nothing else in between. -/
def alone (plan : Plan) (t : Task σ) (w : World σ) : Ending Outcome × World σ :=
  match _h : t.step plan w with
  | (.waiting t', w') => alone plan t' w'
  | (.ended ending, w') => (ending, w')
termination_by t.left
decreasing_by exact left_step _h

/-- What comes of a step, when nothing else goes on. -/
def onward (plan : Plan) : Progress σ × World σ → Ending Outcome × World σ
  | (.waiting t, w) => t.alone plan w
  | (.ended ending, w) => (ending, w)

theorem alone_eq (plan : Plan) (t : Task σ) (w : World σ) :
    t.alone plan w = onward plan (t.step plan w) := by
  rw [alone]
  split
  · next h =>
      rw [h]
      rfl
  · next h =>
      rw [h]
      rfl

/-- The rest of the work on a document that is staged. -/
def afterFetch (d : Document σ) (plan : Plan) (w : World σ) :
    Ending (Except Fault Nat) × Document σ × World σ :=
  match d.findWindow w.remote with
  | (.error f, d, remote) => (.finished (.error f), d, { w with remote := remote })
  | (.ok window, d, remote) =>
    ((d.convert plan window w.files).1, d, ⟨(d.convert plan window w.files).2, remote⟩)

/-- The end of the work on a document, after an attempt. -/
def concluded (r : Ending (Except Fault Nat) × Document σ × World σ) : Ending Outcome × World σ :=
  (r.1.map (.ofAttempt r.2.1.locator), { r.2.2 with files := r.2.1.cleanUp r.2.2.files })

theorem onward_proceed (plan : Plan) (d : Document σ) (w : World σ) :
    onward plan (proceed plan d w) = concluded (afterFetch d plan w) := by
  rw [proceed, afterFetch, Document.findWindow]
  cases d.window with
  | some window =>
      simp only [deliver_eq]
      rw [onward, concluded]
  | none =>
      -- without a window the task waits once more, for the answer to a probe
      simp only [onward]
      rw [alone_eq, step, Document.probe]
      simp only
      cases hlearn : d.learn (d.source.probe w.remote).1 with
      | mk r d' =>
          cases r with
          | error f => rfl
          | ok u =>
              simp only [deliver_eq]
              rw [onward, concluded]

theorem work_eq (d : Document σ) (plan : Plan) (w : World σ) :
    d.work plan w =
      if d.isFinished plan w.files then
        (.finished (.skipped d.locator), { w with files := d.cleanUp w.files })
      else
        match d.fetch w with
        | (.error f, d, w) => concluded (.finished (.error f), d, w)
        | (.ok (), d, w) => concluded (afterFetch d plan w) := by
  unfold Document.work Document.ingest
  by_cases hfinished : d.isFinished plan w.files = true
  · rw [if_pos hfinished, if_pos hfinished]
  · rw [if_neg hfinished, if_neg hfinished]
    generalize d.fetch w = fetched
    obtain ⟨r, d', w'⟩ := fetched
    cases r with
    | error f => rfl
    | ok u =>
        simp only [afterFetch]
        generalize d'.findWindow w'.remote = found
        obtain ⟨r, d'', remote⟩ := found
        cases r with
        | error f => rfl
        | ok window => simp only [Document.conclude, concluded]

/-- **The steps of a task make up the work on its document.** -/
theorem alone_fresh (plan : Plan) (d : Document σ) (w : World σ) :
    (fresh d).alone plan w = d.work plan w := by
  rw [alone_eq, work_eq, step, Document.fetch]
  by_cases hfinished : d.isFinished plan w.files = true
  · rw [if_pos hfinished, if_pos hfinished]
    rfl
  · rw [if_neg hfinished, if_neg hfinished]
    by_cases hstaged : d.isStaged w.files = true
    · rw [if_pos hstaged, if_pos hstaged]
      exact onward_proceed plan d.held w
    · rw [if_neg hstaged, if_neg hstaged]
      simp only [onward]
      rw [alone_eq, step]
      simp only
      cases d.receive w.files (d.source.download w.remote).1 with
      | mk r rest =>
          cases r with
          | error f => rfl
          | ok u => exact onward_proceed plan rest.1 ⟨rest.2, _⟩

end Task

end Intake
