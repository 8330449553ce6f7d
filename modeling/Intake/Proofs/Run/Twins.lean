import Intake.Proofs.Run.Effects
import Intake.Proofs.Run.Moments
import Mathlib.Data.List.Forall2

/-!
# Twins

Two remote systems may be in different states and still answer alike, now and later on. Who only
asks them cannot tell one from the other. So two sources that ask such systems are twins, and so are
documents, tasks and connectors with sources that are twins. Whatever is done with twins, the same
comes out and the same files are there; the states of the remote systems still answer alike, and
what becomes of twins are twins.
-/

namespace Intake

open Files

/-! ## Steps that go together -/

section

variable {α β γ δ : Type}

/-- Two steps that go together: what comes out of them fits, and so does what is there after
them. -/
def InStep (P : α → β → Prop) (Q : γ → δ → Prop) (x : α × γ) (y : β × δ) : Prop :=
  P x.1 y.1 ∧ Q x.2 y.2

/-- The two sides of steps out of which the same comes. -/
theorem InStep.same {Q : γ → δ → Prop} {x : α × γ} {y : α × δ} (h : InStep Eq Q x y) :
    ∃ a c d, x = (a, c) ∧ y = (a, d) ∧ Q c d := by
  obtain ⟨a, c⟩ := x
  obtain ⟨b, d⟩ := y
  obtain ⟨hsame, hafter⟩ := h
  obtain rfl : a = b := hsame
  exact ⟨a, c, d, rfl, rfl, hafter⟩

/-- Two answers that fit: the same fault, or two things that fit. -/
inductive Answered (P : α → β → Prop) : Except Fault α → Except Fault β → Prop where
  | error (f : Fault) : Answered P (.error f) (.error f)
  | ok {a : α} {b : β} : P a b → Answered P (.ok a) (.ok b)

theorem Answered.map {α' β' : Type} {P : α → β → Prop} {Q : α' → β' → Prop} {f : α → α'}
    {g : β → β'} {x : Except Fault α} {y : Except Fault β} (h : Answered P x y)
    (hfits : ∀ {a b}, P a b → Q (f a) (g b)) : Answered Q (x.map f) (y.map g) := by
  rcases h with fault | hab
  · exact .error fault
  · exact .ok (hfits hab)

theorem Answered.eq_map {f : α → β} {x : Except Fault α} {y : Except Fault β}
    (h : Answered (fun a b => b = f a) x y) : y = x.map f := by
  rcases h with fault | hsame
  · rfl
  · exact congrArg Except.ok hsame

/-- The two sides of steps with answers that fit. -/
theorem InStep.answered {P : α → β → Prop} {Q : γ → δ → Prop} {x : Except Fault α × γ}
    {y : Except Fault β × δ} (h : InStep (Answered P) Q x y) :
    (∃ f c d, x = (.error f, c) ∧ y = (.error f, d) ∧ Q c d) ∨
      ∃ a b c d, x = (.ok a, c) ∧ y = (.ok b, d) ∧ P a b ∧ Q c d := by
  obtain ⟨r, c⟩ := x
  obtain ⟨r', d⟩ := y
  obtain ⟨hanswered, hafter⟩ := h
  rcases hanswered with f | hfits
  · exact Or.inl ⟨f, c, d, rfl, rfl, hafter⟩
  · exact Or.inr ⟨_, _, c, d, rfl, rfl, hfits, hafter⟩

/-- From a place on, two lists whose items fit both end, or both go on with items that fit. -/
theorem forall₂_drop_cases {P : α → β → Prop} {as : List α} {bs : List β}
    (h : List.Forall₂ P as bs) (place : Nat) :
    as.drop place = [] ∧ bs.drop place = [] ∨
      ∃ a as' b bs', as.drop place = a :: as' ∧ bs.drop place = b :: bs' ∧ P a b ∧
        List.Forall₂ P as' bs' := by
  have hrest := List.forall₂_drop place h
  cases hleft : as.drop place with
  | nil =>
      rw [hleft] at hrest
      exact Or.inl ⟨rfl, List.forall₂_nil_left_iff.mp hrest⟩
  | cons a as' =>
      rw [hleft] at hrest
      obtain ⟨b, bs', hfits, hfit, hright⟩ := List.forall₂_cons_left_iff.mp hrest
      exact Or.inr ⟨a, as', b, bs', rfl, hright, hfits, hfit⟩

end

variable {σ τ : Type}

/-- Sources that differ at most in how they ask. Wherever remote systems answer alike, the sources
get the same answers, and the systems answer alike afterwards. -/
structure Source.Twin (R : σ → τ → Prop) (s : Source σ) (t : Source τ) : Prop where
  locator : s.locator = t.locator
  extension : s.extension = t.extension
  probe : ∀ {x y}, R x y → InStep Eq R (s.probe x) (t.probe y)
  download : ∀ {x y}, R x y → InStep Eq R (s.download x) (t.download y)

/-- The same files beside remote systems that answer alike. -/
structure World.Twin (R : σ → τ → Prop) (w : World σ) (v : World τ) : Prop where
  files : w.files = v.files
  remote : R w.remote v.remote

variable {R : σ → τ → Prop} {x : σ} {y : τ} {w : World σ} {v : World τ}

/-! ## Documents -/

namespace Document

/-- Documents of which the same is known, with sources that are twins. -/
structure Twin (R : σ → τ → Prop) (d : Document σ) (e : Document τ) : Prop where
  source : d.source.Twin R e.source
  settings : d.settings = e.settings
  presence : d.presence = e.presence
  window : d.window = e.window

theorem twin_ofSource (settings : Settings) {s : Source σ} {t : Source τ} (h : s.Twin R t) :
    Twin R (ofSource settings s) (ofSource settings t) :=
  ⟨h, rfl, rfl, rfl⟩

theorem twin_asking {d : Document σ} {t : Source τ} (h : d.source.Twin R t) :
    Twin R d (d.asking t) :=
  ⟨h, rfl, rfl, rfl⟩

namespace Twin

variable {d : Document σ} {e : Document τ} (h : Twin R d e)

include h

theorem eq_asking : e = d.asking e.source := by
  rw [asking, h.settings, h.presence, h.window]

theorem locator : d.locator = e.locator := h.source.locator

theorem stagingPath : d.stagingPath = e.stagingPath := by
  rw [Document.stagingPath, Document.stagingPath, h.locator, h.source.extension, h.settings]

theorem outputPath : d.outputPath = e.outputPath := by
  rw [Document.outputPath, Document.outputPath, h.locator, h.settings]

theorem hasOutput (fs : FileSystem) : d.hasOutput fs = e.hasOutput fs := by
  rw [Document.hasOutput, Document.hasOutput, h.outputPath]

theorem isStaged (fs : FileSystem) : d.isStaged fs = e.isStaged fs := by
  rw [Document.isStaged, Document.isStaged, h.stagingPath]

theorem isFinished (plan : Plan) (fs : FileSystem) :
    d.isFinished plan fs = e.isFinished plan fs := by
  rw [Document.isFinished, Document.isFinished, h.hasOutput]

theorem cleanUp (fs : FileSystem) : d.cleanUp fs = e.cleanUp fs := by
  rw [Document.cleanUp, Document.cleanUp, h.stagingPath, h.settings]

theorem describe : d.describe = e.describe := by
  rw [Document.describe, Document.describe, h.locator, h.presence, h.window]

theorem convert (plan : Plan) (window : Time.Window) (fs : FileSystem) :
    d.convert plan window fs = e.convert plan window fs := by
  have houtput (now : Time.Instant) (ps : List Element.Paragraph) :
      d.output window now ps = e.output window now ps := by
    rw [output, output, h.locator, h.stagingPath]
  rw [Document.convert, Document.convert, h.stagingPath, h.outputPath, h.locator]
  simp only [houtput]

theorem held : Twin R d.held e.held := ⟨h.source, h.settings, rfl, h.window⟩

theorem resetWindow : Twin R d.resetWindow e.resetWindow :=
  ⟨h.source, h.settings, h.presence, rfl⟩

theorem learn (answer : Except Fault Probe) :
    InStep Eq (Twin R) (d.learn answer) (e.learn answer) := by
  rw [h.eq_asking, learn_asking h.source.locator.symm]
  refine ⟨rfl, twin_asking ?_⟩
  rw [(d.akin_learn answer).source]
  exact h.source

theorem receive (fs : FileSystem) (answer : Except Fault Download) :
    InStep Eq (InStep (Twin R) Eq) (d.receive fs answer) (e.receive fs answer) := by
  rw [h.eq_asking, receive_asking h.source.locator.symm h.source.extension.symm]
  refine ⟨rfl, twin_asking ?_, rfl⟩
  rw [(d.akin_receive fs answer).source]
  exact h.source

theorem probe (hr : R x y) : InStep Eq (InStep (Twin R) R) (d.probe x) (e.probe y) := by
  obtain ⟨answer, x', y', hx, hy, hr'⟩ := (h.source.probe hr).same
  have hlearn := h.learn answer
  unfold Document.probe
  rw [hx, hy]
  exact ⟨hlearn.1, hlearn.2, hr'⟩

theorem isThere (hr : R x y) : InStep Eq (InStep (Twin R) R) (d.isThere x) (e.isThere y) := by
  unfold Document.isThere
  rw [h.presence]
  by_cases hunknown : e.presence = .unknown
  · rw [if_pos hunknown, if_pos hunknown]
    obtain ⟨r, ⟨d', x'⟩, ⟨e', y'⟩, hx, hy, htwin, hr'⟩ := (h.probe hr).same
    rw [hx, hy]
    cases r with
    | error f => exact ⟨rfl, htwin, hr'⟩
    | ok u => exact ⟨congrArg (fun p => Except.ok (p == Presence.present)) htwin.presence,
        htwin, hr'⟩
  · rw [if_neg hunknown, if_neg hunknown]
    exact ⟨rfl, h, hr⟩

theorem findWindow (hr : R x y) :
    InStep Eq (InStep (Twin R) R) (d.findWindow x) (e.findWindow y) := by
  unfold Document.findWindow
  rw [h.window]
  cases e.window with
  | some window => exact ⟨rfl, h, hr⟩
  | none =>
      obtain ⟨r, ⟨d', x'⟩, ⟨e', y'⟩, hx, hy, htwin, hr'⟩ := (h.probe hr).same
      simp only [hx, hy]
      cases r with
      | error f => exact ⟨rfl, htwin, hr'⟩
      | ok u => exact ⟨congrArg (fun w => Except.ok (w.getD Time.Window.empty)) htwin.window,
          htwin, hr'⟩

theorem fetch (hw : World.Twin R w v) :
    InStep Eq (InStep (Twin R) (World.Twin R)) (d.fetch w) (e.fetch v) := by
  unfold Document.fetch
  rw [h.isStaged, hw.files]
  by_cases hstaged : e.isStaged v.files = true
  · rw [if_pos hstaged, if_pos hstaged]
    exact ⟨rfl, h.held, hw⟩
  · rw [if_neg hstaged, if_neg hstaged]
    obtain ⟨answer, x', y', hx, hy, hr'⟩ := (h.source.download hw.remote).same
    have hreceive := h.receive v.files answer
    rw [hx, hy]
    exact ⟨hreceive.1, hreceive.2.1, hreceive.2.2, hr'⟩

theorem ingest (plan : Plan) (hw : World.Twin R w v) :
    InStep Eq (InStep (Twin R) (World.Twin R)) (d.ingest plan w) (e.ingest plan v) := by
  unfold Document.ingest
  obtain ⟨fetched, ⟨d', w'⟩, ⟨e', v'⟩, hx, hy, hd, hw'⟩ := (h.fetch hw).same
  rw [hx, hy]
  cases fetched with
  | error f => exact ⟨rfl, hd, hw'⟩
  | ok u =>
      simp only
      obtain ⟨found, ⟨d'', x''⟩, ⟨e'', y''⟩, hx, hy, hd', hr⟩ := (hd.findWindow hw'.remote).same
      rw [hx, hy]
      cases found with
      | error f => exact ⟨rfl, hd', hw'.files, hr⟩
      | ok window =>
          simp only
          rw [hd'.convert, hw'.files]
          exact ⟨rfl, hd', rfl, hr⟩

/-- The work on twins comes to the same end. -/
theorem work (plan : Plan) (hw : World.Twin R w v) :
    InStep Eq (World.Twin R) (d.work plan w) (e.work plan v) := by
  unfold Document.work
  rw [h.isFinished, hw.files]
  by_cases hfinished : e.isFinished plan v.files = true
  · rw [if_pos hfinished, if_pos hfinished, h.locator, h.cleanUp]
    exact ⟨rfl, rfl, hw.remote⟩
  · rw [if_neg hfinished, if_neg hfinished]
    obtain ⟨attempt, ⟨d', w'⟩, ⟨e', v'⟩, hx, hy, hd, hw'⟩ := (h.ingest plan hw).same
    rw [hx, hy]
    unfold conclude
    simp only
    rw [hd.locator, hd.cleanUp, hw'.files]
    exact ⟨rfl, rfl, hw'.remote⟩

end Twin

end Document

/-! ## Tasks -/

namespace Task

/-- The work on twins stands at the same place. -/
inductive Twin (R : σ → τ → Prop) : Task σ → Task τ → Prop where
  | fresh {d : Document σ} {e : Document τ} : d.Twin R e → Twin R (.fresh d) (.fresh e)
  | downloading {d : Document σ} {e : Document τ} :
      d.Twin R e → Twin R (.downloading d) (.downloading e)
  | probing {d : Document σ} {e : Document τ} : d.Twin R e → Twin R (.probing d) (.probing e)

end Task

/-- Steps of tasks that led to the same place. -/
inductive Progress.Twin (R : σ → τ → Prop) : Progress σ → Progress τ → Prop where
  | waiting {t : Task σ} {u : Task τ} : t.Twin R u → Twin R (.waiting t) (.waiting u)
  | ended (ending : Ending Outcome) : Twin R (.ended ending) (.ended ending)

namespace Task

variable {d : Document σ} {e : Document τ} {t : Task σ} {u : Task τ}

theorem twin_finish (h : d.Twin R e) (attempt : Ending (Except Fault Nat))
    (hw : World.Twin R w v) :
    InStep (Progress.Twin R) (World.Twin R) (finish d attempt w) (finish e attempt v) := by
  rw [finish_eq, finish_eq, h.locator, h.cleanUp, hw.files]
  exact ⟨.ended _, rfl, hw.remote⟩

theorem twin_deliver (plan : Plan) (h : d.Twin R e) (window : Time.Window)
    (hw : World.Twin R w v) :
    InStep (Progress.Twin R) (World.Twin R) (deliver plan d window w)
      (deliver plan e window v) := by
  unfold deliver
  rw [h.convert, hw.files]
  exact twin_finish h _ ⟨rfl, hw.remote⟩

theorem twin_proceed (plan : Plan) (h : d.Twin R e) (hw : World.Twin R w v) :
    InStep (Progress.Twin R) (World.Twin R) (proceed plan d w) (proceed plan e v) := by
  unfold proceed
  rw [h.window]
  cases e.window with
  | some window => exact twin_deliver plan h window hw
  | none => exact ⟨.waiting (.probing h), hw⟩

/-- A step of twins leads to the same place. -/
theorem Twin.step (plan : Plan) (h : t.Twin R u) (hw : World.Twin R w v) :
    InStep (Progress.Twin R) (World.Twin R) (t.step plan w) (u.step plan v) := by
  cases h with
  | @fresh d e h =>
      rw [Task.step, Task.step, h.isFinished, h.isStaged, hw.files]
      by_cases hfinished : e.isFinished plan v.files = true
      · rw [if_pos hfinished, if_pos hfinished, h.locator, h.cleanUp]
        exact ⟨.ended _, rfl, hw.remote⟩
      · rw [if_neg hfinished, if_neg hfinished]
        by_cases hstaged : e.isStaged v.files = true
        · rw [if_pos hstaged, if_pos hstaged]
          exact twin_proceed plan h.held hw
        · rw [if_neg hstaged, if_neg hstaged]
          exact ⟨.waiting (.downloading h), hw⟩
  | @downloading d e h =>
      obtain ⟨answer, x', y', hx, hy, hr⟩ := (h.source.download hw.remote).same
      obtain ⟨received, ⟨d', fs⟩, ⟨e', fs'⟩, hd, he, htwin, hfiles⟩ :=
        (h.receive v.files answer).same
      rw [Task.step, Task.step, hx, hy, hw.files]
      simp only [hd, he]
      cases received with
      | error f => exact twin_finish htwin _ ⟨hfiles, hr⟩
      | ok u => exact twin_proceed plan htwin ⟨hfiles, hr⟩
  | @probing d e h =>
      obtain ⟨answer, x', y', hx, hy, hr⟩ := (h.source.probe hw.remote).same
      obtain ⟨learned, d', e', hd, he, htwin⟩ := (h.learn answer).same
      rw [Task.step, Task.step, hx, hy]
      simp only [hd, he]
      cases learned with
      | error f => exact twin_finish htwin _ ⟨hw.files, hr⟩
      | ok u =>
          simp only [htwin.window]
          exact twin_deliver plan htwin _ ⟨hw.files, hr⟩

theorem Twin.step_of_waiting {plan : Plan} {t' : Task σ} {w' : World σ} (h : t.Twin R u)
    (hw : World.Twin R w v) (hstep : t.step plan w = (.waiting t', w')) :
    ∃ u' v', u.step plan v = (.waiting u', v') ∧ t'.Twin R u' ∧ World.Twin R w' v' := by
  have htwin := h.step plan hw
  rw [hstep] at htwin
  cases hother : u.step plan v with
  | mk progress v' =>
      rw [hother] at htwin
      obtain ⟨hprogress, hv'⟩ := htwin
      cases hprogress with
      | waiting hu' => exact ⟨_, v', rfl, hu', hv'⟩

theorem Twin.step_of_ended {plan : Plan} {ending : Ending Outcome} {w' : World σ}
    (h : t.Twin R u) (hw : World.Twin R w v) (hstep : t.step plan w = (.ended ending, w')) :
    ∃ v', u.step plan v = (.ended ending, v') ∧ World.Twin R w' v' := by
  have htwin := h.step plan hw
  rw [hstep] at htwin
  cases hother : u.step plan v with
  | mk progress v' =>
      rw [hother] at htwin
      obtain ⟨hprogress, hv'⟩ := htwin
      cases hprogress with
      | ended ending => exact ⟨v', rfl, hv'⟩

theorem Twin.abandon (h : t.Twin R u) (fs : FileSystem) : t.abandon fs = u.abandon fs := by
  cases h with
  | fresh h => rfl
  | downloading h => exact h.cleanUp fs
  | probing h => exact h.cleanUp fs

end Task

/-! ## Queues -/

namespace Queue

structure Twin (R : σ → τ → Prop) (q : Queue σ) (p : Queue τ) : Prop where
  active : List.Forall₂ (Task.Twin R) q.active p.active
  waiting : List.Forall₂ (Document.Twin R) q.waiting p.waiting

variable {q : Queue σ} {p : Queue τ}

theorem Twin.refill (h : q.Twin R p) (bound : Nat) : (q.refill bound).Twin R (p.refill bound) := by
  unfold Queue.refill
  rw [h.active.length_eq]
  refine ⟨List.rel_append h.active ?_, List.forall₂_drop _ h.waiting⟩
  rw [List.forall₂_map_left_iff, List.forall₂_map_right_iff]
  exact (List.forall₂_take _ h.waiting).imp fun _ _ => .fresh

theorem Twin.turn_of_none (h : q.Twin R p) {k : Nat} (hturn : q.turn k = none) :
    p.turn k = none := by
  have hnone : q.active = [] := Moment.active_of_turn_none hturn
  have hactive := h.active
  rw [hnone, List.forall₂_nil_left_iff] at hactive
  simp only [Queue.turn, hactive, List.drop_nil]

/-- Among twins, it is the turn of twins. -/
theorem Twin.turn_of_some (h : q.Twin R p) {k : Nat} {before after : List (Task σ)} {t : Task σ}
    (hturn : q.turn k = some (before, t, after)) :
    ∃ before' u after', p.turn k = some (before', u, after') ∧
      List.Forall₂ (Task.Twin R) before before' ∧ t.Twin R u ∧
      List.Forall₂ (Task.Twin R) after after' := by
  have hlength := h.active.length_eq
  simp only [Queue.turn, hlength] at hturn
  rcases forall₂_drop_cases h.active (k % p.active.length) with
    ⟨hleft, _⟩ | ⟨t', ts, u, us, hleft, hright, hu, hus⟩
  · rw [hleft] at hturn
    cases hturn
  · rw [hleft] at hturn
    cases hturn
    refine ⟨p.active.take (k % p.active.length), u, us, ?_, List.forall₂_take _ h.active, hu, hus⟩
    simp only [Queue.turn, hright]

theorem twin_abandonAll {ts : List (Task σ)} {us : List (Task τ)}
    (h : List.Forall₂ (Task.Twin R) ts us) :
    ∀ fs : FileSystem, abandonAll fs ts = abandonAll fs us := by
  induction h with
  | nil => exact fun _ => rfl
  | @cons t u ts us htwin _ ih =>
      intro fs
      rw [abandonAll, List.foldl_cons, htwin.abandon]
      exact ih _

/-- Queues of twins come to the same end. -/
theorem twin_run (plan : Plan) (bound : Nat) (schedule : Schedule) (moment : Nat) (q : Queue σ)
    (w : World σ) :
    ∀ (p : Queue τ) (v : World τ), q.Twin R p → World.Twin R w v →
      InStep Eq (World.Twin R) (q.run plan bound schedule moment w)
        (p.run plan bound schedule moment v) := by
  -- by the turns of the first queue; the second one takes the same turns
  induction moment, q, w using Queue.run.induct plan bound schedule with
  | case1 moment q w hturn =>
      intro p v h hw
      have hother := (h.refill bound).turn_of_none hturn
      rw [run_of_none hturn, run_of_none hother]
      exact ⟨rfl, hw⟩
  | case2 moment q w before t after hturn waiting t' w' hstep ih =>
      intro p v h hw
      obtain ⟨before', u, after', hother, hbefore, hu, hafter⟩ :=
        (h.refill bound).turn_of_some hturn
      obtain ⟨u', v', hstep', hu', hv'⟩ := hu.step_of_waiting hw hstep
      rw [run_of_waiting hturn hstep, run_of_waiting hother hstep']
      apply ih ⟨before' ++ u' :: after', (p.refill bound).waiting⟩ v' ?_ hv'
      exact ⟨List.rel_append hbefore (.cons hu' hafter), (h.refill bound).waiting⟩
  | case3 moment q w before t after hturn waiting outcome w' hstep ending w'' hrun ih =>
      intro p v h hw
      obtain ⟨before', u, after', hother, hbefore, hu, hafter⟩ :=
        (h.refill bound).turn_of_some hturn
      obtain ⟨v', hstep', hv'⟩ := hu.step_of_ended hw hstep
      have hrest := ih ⟨before' ++ after', (p.refill bound).waiting⟩ v'
        ⟨List.rel_append hbefore hafter, (h.refill bound).waiting⟩ hv'
      rw [run_of_finished hturn hstep, run_of_finished hother hstep']
      exact ⟨congrArg (Ending.map (outcome :: ·)) hrest.1, hrest.2⟩
  | case4 moment q w before t after hturn message w' hstep =>
      intro p v h hw
      obtain ⟨before', u, after', hother, hbefore, hu, hafter⟩ :=
        (h.refill bound).turn_of_some hturn
      obtain ⟨v', hstep', hv'⟩ := hu.step_of_ended hw hstep
      rw [run_of_brokeDown hturn hstep, run_of_brokeDown hother hstep']
      refine ⟨rfl, ?_, hv'.remote⟩
      show abandonAll w'.files (before ++ after) = abandonAll v'.files (before' ++ after')
      rw [hv'.files]
      exact twin_abandonAll (List.rel_append hbefore hafter) v'.files

end Queue

/-! ## Connectors -/

namespace Connector

/-- Connectors that list twins in the same order, or nothing for the same reason. -/
structure Twin (R : σ → τ → Prop) (c : Connector σ) (k : Connector τ) : Prop where
  name : c.name = k.name
  settings : c.settings = k.settings
  list : ∀ {x y}, R x y →
    InStep (Answered (List.Forall₂ (Source.Twin R))) R (c.list x) (k.list y)

namespace Twin

variable {c : Connector σ} {k : Connector τ} (h : c.Twin R k)

include h

theorem prepare (fs : FileSystem) : c.prepare fs = k.prepare fs := by
  rw [Connector.prepare, Connector.prepare, h.settings]

theorem cleanUp (fs : FileSystem) : c.cleanUp fs = k.cleanUp fs := by
  rw [Connector.cleanUp, Connector.cleanUp, h.settings]

theorem documents (hr : R x y) :
    InStep (Answered (List.Forall₂ (Document.Twin R))) R (c.documents x) (k.documents y) := by
  unfold Connector.documents
  rcases (h.list hr).answered with ⟨f, x', y', hx, hy, hr'⟩ | ⟨ss, ts, x', y', hx, hy, hall, hr'⟩
  · rw [hx, hy]
    exact ⟨.error f, hr'⟩
  · rw [hx, hy]
    refine ⟨.ok ?_, hr'⟩
    rw [List.forall₂_map_left_iff, List.forall₂_map_right_iff, h.settings]
    exact hall.imp fun _ _ => Document.twin_ofSource k.settings

theorem workOn (processor : Processor) (conditions : Conditions) (schedule : Schedule)
    (hw : World.Twin R w v) :
    InStep Eq (World.Twin R) (c.workOn processor conditions schedule w)
      (k.workOn processor conditions schedule v) := by
  unfold Connector.workOn
  rw [h.prepare, hw.files]
  obtain ⟨prepared, fs⟩ := k.prepare v.files
  cases prepared with
  | error f => exact ⟨rfl, rfl, hw.remote⟩
  | ok u =>
      have hplan : c.plan processor conditions = k.plan processor conditions := by
        rw [Connector.plan, Connector.plan, h.settings]
      have hbound : c.bound = k.bound := by
        rw [Connector.bound, Connector.bound, h.settings]
      simp only [hplan, hbound]
      rcases (h.documents hw.remote).answered with
        ⟨f, x', y', hx, hy, hr⟩ | ⟨ds, es, x', y', hx, hy, hall, hr⟩
      · rw [hx, hy]
        exact ⟨rfl, rfl, hr⟩
      · rw [hx, hy]
        have hrun := Queue.twin_run (k.plan processor conditions) k.bound schedule 0
          (Queue.ofDocuments ds) ⟨fs, x'⟩ (Queue.ofDocuments es) ⟨fs, y'⟩ ⟨.nil, hall⟩ ⟨rfl, hr⟩
        exact ⟨congrArg (Ending.map fun outcomes => Except.ok (Summary.ofOutcomes outcomes)) hrun.1,
          hrun.2⟩

/-- **Runs of twins are alike.** They come to the same end, leave the same files, and the remote
systems answer alike afterwards. -/
theorem run (processor : Processor) (conditions : Conditions) (schedule : Schedule)
    (hw : World.Twin R w v) :
    InStep Eq (World.Twin R) (c.run processor conditions schedule w)
      (k.run processor conditions schedule v) := by
  obtain ⟨ending, w', v', hx, hy, hw'⟩ := (h.workOn processor conditions schedule hw).same
  unfold Connector.run
  rw [hx, hy]
  refine ⟨rfl, ?_, hw'.remote⟩
  show c.cleanUp w'.files = k.cleanUp v'.files
  rw [h.cleanUp, hw'.files]

end Twin

end Connector

end Intake
