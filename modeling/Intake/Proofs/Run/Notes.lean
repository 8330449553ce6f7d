import Intake.Proofs.Document.Noting
import Intake.Proofs.Run.Outcomes

/-!
# What a run asks of the sources

A source that notes the requests that are made to it answers them as before. So a run of a connector
goes on in the same way if its sources note what they are asked, and the notes tell what the run
asks. Of a document that has its result already, nothing is asked.
-/

namespace Intake

open Files

variable {σ : Type}

/-- Notes a question alone, with the source that is asked. -/
def Asked.request (source : Source σ) : Asked → Request σ
  | .probe _ => ⟨source, .probe⟩
  | .download _ => ⟨source, .download⟩

/-- The world with the requests that were noted in it. -/
def World.noting (w : World σ) (asked : List (Request σ)) : World (σ × List (Request σ)) :=
  ⟨w.files, w.remote, asked⟩

/-! ## Noting changes nothing -/

namespace Document

variable (d : Document σ)

theorem stagingPath_noting : (d.noting Asked.request).stagingPath = d.stagingPath := rfl

theorem outputPath_noting : (d.noting Asked.request).outputPath = d.outputPath := rfl

theorem cleanUp_noting (fs : FileSystem) :
    (d.noting Asked.request).cleanUp fs = d.cleanUp fs := by
  rw [cleanUp, cleanUp, stagingPath_noting]
  rfl

theorem convert_noting (plan : Plan) (window : Time.Window) (fs : FileSystem) :
    (d.noting Asked.request).convert plan window fs = d.convert plan window fs := by
  have hlocator : (d.noting Asked.request).locator = d.locator := rfl
  have houtput (ps : List Element.Paragraph) :
      (d.noting Asked.request).output window (plan.conditions.clock d.locator) ps =
        d.output window (plan.conditions.clock d.locator) ps := rfl
  rw [convert, convert, stagingPath_noting, outputPath_noting, hlocator]
  simp only [houtput]

end Document

namespace Task

def noting : Task σ → Task (σ × List (Request σ))
  | .fresh d => .fresh (d.noting Asked.request)
  | .downloading d => .downloading (d.noting Asked.request)
  | .probing d => .probing (d.noting Asked.request)

end Task

def Progress.noting : Progress σ → Progress (σ × List (Request σ))
  | .waiting t => .waiting t.noting
  | .ended ending => .ended ending

namespace Task

variable (plan : Plan) (w : World σ) (asked : List (Request σ))

theorem finish_noting (d : Document σ) (attempt : Ending (Except Fault Nat)) :
    finish (d.noting Asked.request) attempt (w.noting asked) =
      ((finish d attempt w).1.noting, (finish d attempt w).2.noting asked) := by
  rw [finish_eq, finish_eq, World.noting, d.cleanUp_noting]
  rfl

theorem deliver_noting (d : Document σ) (window : Time.Window) :
    deliver plan (d.noting Asked.request) window (w.noting asked) =
      ((deliver plan d window w).1.noting, (deliver plan d window w).2.noting asked) := by
  rw [deliver_eq, deliver_eq, World.noting, d.convert_noting, d.cleanUp_noting]
  rfl

theorem proceed_noting (d : Document σ) :
    proceed plan (d.noting Asked.request) (w.noting asked) =
      ((proceed plan d w).1.noting, (proceed plan d w).2.noting asked) := by
  have hwindow : (d.noting Asked.request).window = d.window := rfl
  rw [proceed, proceed, hwindow]
  cases d.window with
  | none => rfl
  | some window => exact deliver_noting plan w asked d window

/-- A step that is noted is the same step, with its requests behind the earlier ones. -/
theorem step_noting (t : Task σ) :
    t.noting.step plan (w.noting asked) =
      ((t.step plan w).1.noting, (t.step plan w).2.noting (asked ++ t.requests)) := by
  cases t with
  | fresh d =>
      rw [requests, List.append_nil, noting, step, step]
      by_cases hfinished : d.isFinished plan w.files = true
      · have hfinished' :
            (d.noting Asked.request).isFinished plan (w.noting asked).files = true := hfinished
        rw [if_pos hfinished, if_pos hfinished', d.cleanUp_noting]
        rfl
      · have hfinished' :
            ¬(d.noting Asked.request).isFinished plan (w.noting asked).files = true := hfinished
        rw [if_neg hfinished, if_neg hfinished']
        by_cases hstaged : d.isStaged w.files = true
        · have hstaged' :
              (d.noting Asked.request).isStaged (w.noting asked).files = true := hstaged
          rw [if_pos hstaged, if_pos hstaged']
          exact proceed_noting plan w asked d.held
        · have hstaged' :
              ¬(d.noting Asked.request).isStaged (w.noting asked).files = true := hstaged
          rw [if_neg hstaged, if_neg hstaged']
          rfl
  | downloading d =>
      have hanswer : (d.noting Asked.request).source.download (w.noting asked).remote =
          ((d.source.download w.remote).1, (d.source.download w.remote).2,
            asked ++ [⟨d.source, .download⟩]) := rfl
      rw [requests, noting, step, step, hanswer]
      simp only [World.noting, d.receive_noting Asked.request]
      cases d.receive w.files (d.source.download w.remote).1 with
      | mk r rest =>
          cases r with
          | error f => exact finish_noting ⟨rest.2, (d.source.download w.remote).2⟩ _ rest.1 _
          | ok u =>
              exact proceed_noting plan ⟨rest.2, (d.source.download w.remote).2⟩ _ rest.1
  | probing d =>
      have hanswer : (d.noting Asked.request).source.probe (w.noting asked).remote =
          ((d.source.probe w.remote).1, (d.source.probe w.remote).2,
            asked ++ [⟨d.source, .probe⟩]) := rfl
      rw [requests, noting, step, step, hanswer]
      simp only [World.noting, d.learn_noting Asked.request]
      cases d.learn (d.source.probe w.remote).1 with
      | mk r d' =>
          cases r with
          | error f => exact finish_noting ⟨w.files, (d.source.probe w.remote).2⟩ _ d' _
          | ok u =>
              have hwindow : (d'.noting Asked.request).window = d'.window := rfl
              have hdeliver := deliver_noting plan ⟨w.files, (d.source.probe w.remote).2⟩
                (asked ++ [⟨d.source, .probe⟩]) d' (d'.window.getD .empty)
              simp only [World.noting] at hdeliver
              simp only [hwindow, hdeliver]

theorem abandon_noting (t : Task σ) (fs : FileSystem) : t.noting.abandon fs = t.abandon fs := by
  cases t <;> rfl

end Task

namespace Queue

def noting (q : Queue σ) : Queue (σ × List (Request σ)) :=
  ⟨q.active.map Task.noting, q.waiting.map (Document.noting Asked.request)⟩

theorem refill_noting (q : Queue σ) (bound : Nat) :
    q.noting.refill bound = (q.refill bound).noting := by
  simp only [refill, noting, List.length_map, List.map_append, List.map_map, List.map_take,
    List.map_drop]
  rfl

theorem turn_noting (q : Queue σ) (k : Nat) :
    q.noting.turn k =
      (q.turn k).map fun (before, t, after) =>
        (before.map Task.noting, t.noting, after.map Task.noting) := by
  simp only [turn, noting, List.length_map, ← List.map_drop, ← List.map_take]
  cases q.active.drop (k % q.active.length) with
  | nil => rfl
  | cons t after => rfl

theorem abandonAll_noting (ts : List (Task σ)) :
    ∀ fs : FileSystem, abandonAll fs (ts.map Task.noting) = abandonAll fs ts := by
  induction ts with
  | nil => exact fun _ => rfl
  | cons t rest ih =>
      intro fs
      simp only [abandonAll, List.map_cons, List.foldl_cons, t.abandon_noting] at ih ⊢
      exact ih _

/-- The sources of the documents that are not finished. -/
def sources (q : Queue σ) : List (Source σ) :=
  q.active.map (·.document.source) ++ q.waiting.map (·.source)

theorem sources_refill (q : Queue σ) (bound : Nat) : (q.refill bound).sources = q.sources := by
  simp only [sources, refill, List.map_append, List.map_map, List.append_assoc]
  congr 1
  show List.map Document.source _ ++ List.map Document.source _ = _
  rw [← List.map_append, List.take_append_drop]

theorem mem_sources {before after : List (Task σ)} {t : Task σ} {waiting : List (Document σ)}
    {source : Source σ} :
    source ∈ (⟨before ++ t :: after, waiting⟩ : Queue σ).sources ↔
      source = t.document.source ∨ source ∈ (⟨before ++ after, waiting⟩ : Queue σ).sources := by
  simp only [sources, List.map_append, List.map_cons, List.mem_append, List.mem_cons]
  tauto

section Turns

variable {q : Queue σ} {bound k : Nat} {before after : List (Task σ)} {t : Task σ}
  (hturn : (q.refill bound).turn k = some (before, t, after))

include hturn

/-- A turn that is noted is the same turn. -/
theorem turn_refill_noting : (q.noting.refill bound).turn k =
    some (before.map Task.noting, t.noting, after.map Task.noting) := by
  rw [refill_noting, turn_noting, hturn]
  rfl

/-- The sources are those of the task whose turn it is and of all others. -/
theorem mem_sources_of_turn {source : Source σ} : source ∈ q.sources ↔
    source = t.document.source ∨
      source ∈ (⟨before ++ after, (q.refill bound).waiting⟩ : Queue σ).sources := by
  rw [← mem_sources, ← sources_refill q bound, sources, sources, Moment.active_of_turn hturn]

end Turns

/-- A queue that is noted comes to the same end, with its requests behind the earlier ones. They are
requests to its sources. -/
theorem run_noting (plan : Plan) (bound : Nat) (schedule : Schedule) (moment : Nat) (q : Queue σ)
    (w : World σ) :
    ∀ asked, ∃ later, (∀ r ∈ later, r.source ∈ q.sources) ∧
      q.noting.run plan bound schedule moment (w.noting asked) =
        ((q.run plan bound schedule moment w).1,
          (q.run plan bound schedule moment w).2.noting (asked ++ later)) := by
  -- by the turns of the queue, each of which is the same turn
  induction moment, q, w using Queue.run.induct plan bound schedule with
  | case1 moment q w hturn =>
      intro asked
      have hturn' : (q.noting.refill bound).turn (schedule moment) = none := by
        rw [refill_noting, turn_noting, hturn]
        rfl
      refine ⟨[], fun r hr => (List.not_mem_nil hr).elim, ?_⟩
      rw [run_of_none hturn, run_of_none hturn', List.append_nil]
  | case2 moment q w before t after hturn waiting t' w' hstep ih =>
      intro asked
      have hstep' := t.step_noting plan w asked
      rw [hstep] at hstep'
      obtain ⟨later, hasked, hlater⟩ := ih (asked ++ t.requests)
      refine ⟨t.requests ++ later, ?_, ?_⟩
      · intro r hr
        rcases List.mem_append.mp hr with hr | hr
        · exact (mem_sources_of_turn hturn).mpr (Or.inl (Task.source_of_requests hr))
        · rw [mem_sources_of_turn hturn, ← (Task.waits_of_step hstep).1.source]
          exact mem_sources.mp (hasked r hr)
      · have hturn' := turn_refill_noting hturn
        rw [run_of_waiting hturn hstep, run_of_waiting hturn' hstep', refill_noting,
          ← List.append_assoc, ← hlater]
        simp only [noting, List.map_append, List.map_cons]
        rfl
  | case3 moment q w before t after hturn waiting outcome w' hstep ending w'' hrun ih =>
      intro asked
      have hstep' := t.step_noting plan w asked
      rw [hstep] at hstep'
      obtain ⟨later, hasked, hlater⟩ := ih (asked ++ t.requests)
      refine ⟨t.requests ++ later, ?_, ?_⟩
      · intro r hr
        exact (mem_sources_of_turn hturn).mpr
          ((List.mem_append.mp hr).imp Task.source_of_requests (hasked r))
      · have hturn' := turn_refill_noting hturn
        simp only [noting, List.map_append] at hlater
        rw [run_of_finished hturn hstep, run_of_finished hturn' hstep', refill_noting,
          ← List.append_assoc, noting]
        simp only
        rw [hlater]
  | case4 moment q w before t after hturn message w' hstep =>
      intro asked
      have hstep' := t.step_noting plan w asked
      rw [hstep] at hstep'
      refine ⟨t.requests, ?_, ?_⟩
      · intro r hr
        exact (mem_sources_of_turn hturn).mpr (Or.inl (Task.source_of_requests hr))
      · have hturn' := turn_refill_noting hturn
        rw [run_of_brokeDown hturn hstep, run_of_brokeDown hturn' hstep', ← List.map_append,
          abandonAll_noting]
        rfl

end Queue

namespace Connector

/-- The connector whose sources note the requests that are made to them. -/
def noting (c : Connector σ) : Connector (σ × List (Request σ)) where
  name := c.name
  settings := c.settings
  list := fun (remote, asked) =>
    ((c.list remote).1.map (·.map (Source.noting Asked.request)), (c.list remote).2, asked)

/-- What a run asks of the sources, the latest request last. -/
def asked (c : Connector σ) (processor : Processor) (conditions : Conditions) (schedule : Schedule)
    (w : World σ) : List (Request σ) :=
  (c.noting.run processor conditions schedule (w.noting [])).2.remote.2

variable (c : Connector σ) (processor : Processor) (conditions : Conditions) (schedule : Schedule)
  (w : World σ)

theorem documents_noting (remote : σ) (asked : List (Request σ)) :
    c.noting.documents (remote, asked) =
      ((c.documents remote).1.map (·.map (Document.noting Asked.request)),
        (c.documents remote).2, asked) := by
  have hlist : c.noting.list (remote, asked) =
      ((c.list remote).1.map (·.map (Source.noting Asked.request)), (c.list remote).2, asked) := rfl
  rw [documents, documents, hlist]
  cases c.list remote with
  | mk r remote' =>
      cases r with
      | error f => rfl
      | ok sources =>
          simp only [Except.map, List.map_map]
          rfl

theorem workOn_noting :
    ∃ later, (∀ r ∈ later, ∃ d ∈ c.enumerated w.remote, r.source = d.source) ∧
      c.noting.workOn processor conditions schedule (w.noting []) =
        ((c.workOn processor conditions schedule w).1,
          (c.workOn processor conditions schedule w).2.noting later) := by
  have hprepare : c.noting.prepare (w.noting []).files = c.prepare w.files := rfl
  have hdocuments : c.noting.documents (w.noting []).remote =
      ((c.documents w.remote).1.map (·.map (Document.noting Asked.request)),
        (c.documents w.remote).2, []) :=
    c.documents_noting w.remote []
  have hnone : ∀ r ∈ ([] : List (Request σ)), ∃ d ∈ c.enumerated w.remote, r.source = d.source :=
    fun r hr => (List.not_mem_nil hr).elim
  rw [workOn, workOn, hprepare, hdocuments]
  cases c.prepare w.files with
  | mk r files =>
      cases r with
      | error f => exact ⟨[], hnone, rfl⟩
      | ok u =>
          simp only
          cases hlist : c.documents w.remote with
          | mk r remote =>
              cases r with
              | error f => exact ⟨[], hnone, rfl⟩
              | ok ds =>
                  obtain ⟨later, hasked, hlater⟩ := (Queue.ofDocuments ds).run_noting
                    (c.plan processor conditions) c.bound schedule 0 ⟨files, remote⟩ []
                  refine ⟨later, ?_, ?_⟩
                  · intro r hr
                    obtain ⟨d, hd, hsource⟩ := List.mem_map.mp (hasked r hr)
                    rw [enumerated, hlist]
                    exact ⟨d, hd, hsource.symm⟩
                  · simp only [World.noting] at hlater
                    simp only [Except.map]
                    have hqueue : Queue.ofDocuments (ds.map (Document.noting Asked.request)) =
                        (Queue.ofDocuments ds).noting := rfl
                    have hplan :
                        c.noting.plan processor conditions = c.plan processor conditions := rfl
                    have hbound : c.noting.bound = c.bound := rfl
                    rw [hqueue, hplan, hbound, hlater]
                    rfl

/-- **Noting changes nothing.** A run whose sources note what they are asked comes to the same end,
and leaves the same files and the same remote system. -/
theorem run_noting :
    c.noting.run processor conditions schedule (w.noting []) =
      ((c.run processor conditions schedule w).1,
        (c.run processor conditions schedule w).2.noting
          (c.asked processor conditions schedule w)) := by
  obtain ⟨later, _, hlater⟩ := c.workOn_noting processor conditions schedule w
  rw [asked, run, hlater, run]
  rfl

/-- A run asks only the sources of its documents. -/
theorem asked_enumerated :
    ∀ r ∈ c.asked processor conditions schedule w,
      ∃ d ∈ c.enumerated w.remote, r.source = d.source := by
  obtain ⟨later, hasked, hlater⟩ := c.workOn_noting processor conditions schedule w
  rw [asked, run, hlater]
  exact hasked

end Connector

/-! ## What is asked of documents with results -/

section Asked

variable {s : Settings} {ds : List (Document (σ × List (Request σ)))} {plan : Plan}
  {before : FileSystem} {bound : Nat}

/-- A step of a task notes requests to its source only if the work on its document has begun. -/
theorem Task.noted_of_step {t : Task (σ × List (Request σ))} {source : Source σ}
    (hsource : t.document.source = source.noting Asked.request) (w : World (σ × List (Request σ)))
    {r : Request σ} (hr : r ∈ (t.step plan w).2.remote.2) :
    r ∈ w.remote.2 ∨ r.source.locator = t.document.locator ∧ t.Begun := by
  rw [remote_step] at hr
  cases t with
  | fresh d => exact Or.inl hr
  | downloading d =>
      have hasked : (Request.sendAll w.remote (downloading d).requests).2 =
          ((source.noting Asked.request).download w.remote).2.2 := by
        rw [← hsource]
        rfl
      rw [hasked] at hr
      refine (List.mem_append.mp hr).imp_right fun hr => ⟨?_, trivial⟩
      rw [List.mem_singleton.mp hr, Document.locator, hsource]
      rfl
  | probing d =>
      have hasked : (Request.sendAll w.remote (probing d).requests).2 =
          ((source.noting Asked.request).probe w.remote).2.2 := by
        rw [← hsource]
        rfl
      rw [hasked] at hr
      refine (List.mem_append.mp hr).imp_right fun hr => ⟨?_, trivial⟩
      rw [List.mem_singleton.mp hr, Document.locator, hsource]
      rfl

namespace Moment

/-- Whether all requests that are noted were made for documents without a result. -/
def Noted (ds : List (Document (σ × List (Request σ)))) (before : FileSystem)
    (asked : List (Request σ)) : Prop :=
  ∀ r ∈ asked, ∃ d ∈ ds, r.source.locator = d.locator ∧ d.hasOutput before = false

variable (plan) in
theorem Noted.step (hspread : Spread s ds before)
    (hnoting : ∀ d ∈ ds, ∃ source : Source σ, d.source = source.noting Asked.request)
    {done : List (Document (σ × List (Request σ)) × Outcome)}
    {tasks : List (Task (σ × List (Request σ)))} {t : Task (σ × List (Request σ))}
    {w : World (σ × List (Request σ))} (hunderway : Underway ds before done tasks w.files)
    (ht : t ∈ tasks) (h : Noted ds before w.remote.2) :
    Noted ds before (t.step plan w).2.remote.2 := by
  intro r hr
  have hamong := hunderway.among_task hspread ht
  obtain ⟨source, hsource⟩ := hnoting _ hamong.1
  rcases Task.noted_of_step hsource w hr with hold | ⟨hlocator, hbegun⟩
  · exact h r hold
  · refine ⟨t.document.renew, hamong.1, hlocator, ?_⟩
    rw [t.document.akin_renew.hasOutput]
    exact hunderway.begun t ht hbegun

theorem Noted.next (hspread : Spread s ds before)
    (hnoting : ∀ d ∈ ds, ∃ source : Source σ, d.source = source.noting Asked.request)
    {m m' : Moment (σ × List (Request σ))} (hnext : Next plan bound m m')
    (hrecording : Recording ds before m) (h : Noted ds before m.world.remote.2) :
    Noted ds before m'.world.remote.2 := by
  obtain ⟨done, _, hunderway⟩ := hrecording
  cases hnext with
  | takeUp _ => exact h
  | @goOn front back t t' waiting w w' outcomes hstep =>
      have hnoted := Noted.step plan hspread hnoting hunderway
        (t := t) (by simp [tasks]) h
      rw [hstep] at hnoted
      exact hnoted
  | @finish front back t waiting w w' outcomes outcome hstep =>
      have hnoted := Noted.step plan hspread hnoting hunderway
        (t := t) (by simp [tasks]) h
      rw [hstep] at hnoted
      exact hnoted

end Moment

/-- A run asks nothing of documents that have their results already. -/
theorem Connector.asked_without_result {c : Connector σ} {processor : Processor}
    {conditions : Conditions} {schedule : Schedule} {w : World σ} {sources : List (Source σ)}
    {remote : σ} (henum : c.Enumerates w sources remote) (hlasting : processor.Lasting)
    (hreprocess : c.settings.reprocess = false)
    (hspread : Spread c.settings (sources.map (.ofSource c.settings)) (c.prepare w.files).2) :
    ∀ r ∈ c.asked processor conditions schedule w, ∃ source ∈ sources,
      r.source.locator = source.locator ∧
        (Document.ofSource c.settings source).hasOutput (c.prepare w.files).2 = false := by
  have henum' : c.noting.Enumerates (w.noting [])
      (sources.map (Source.noting Asked.request)) (remote, []) := by
    refine ⟨henum.prepared, ?_⟩
    have hlist : c.noting.list (w.noting []).remote =
        ((c.list w.remote).1.map (·.map (Source.noting Asked.request)),
          (c.list w.remote).2, []) := rfl
    rw [hlist, henum.listed]
    rfl
  have hspread' : Spread c.settings
      ((sources.map (Source.noting Asked.request)).map (.ofSource c.settings))
      (c.prepare w.files).2 := by
    refine hspread.of_names (Document.initial_of_sources c.settings _) ?_
    simp only [List.map_map]
    exact .refl _
  have hnoting :
      ∀ d ∈ (sources.map (Source.noting Asked.request)).map (Document.ofSource c.settings),
      ∃ source : Source σ, d.source = source.noting Asked.request := by
    simp only [List.map_map, List.mem_map]
    rintro _ ⟨source, _, rfl⟩
    exact ⟨source, rfl⟩
  obtain ⟨os, _, hleads⟩ :=
    henum'.leads processor conditions schedule hlasting
  have hinvariant := hleads.invariant
    (P := fun m =>
      Moment.Recording ((sources.map (Source.noting Asked.request)).map (.ofSource c.settings))
        (c.prepare w.files).2 m ∧
      Moment.Noted ((sources.map (Source.noting Asked.request)).map (.ofSource c.settings))
        (c.prepare w.files).2 m.world.remote.2)
    (fun m m' hnext hm => ⟨hm.1.next hspread' hreprocess hnext,
      hm.2.next hspread' hnoting hnext hm.1⟩)
    ⟨Moment.recording_start hspread' rfl, fun r hr => by cases hr⟩
  intro r hr
  obtain ⟨d, hd, hlocator, hnone⟩ := hinvariant.2 r hr
  simp only [List.map_map, List.mem_map] at hd
  obtain ⟨source, hsource, rfl⟩ := hd
  exact ⟨source, hsource, hlocator, hnone⟩

end Asked

end Intake
