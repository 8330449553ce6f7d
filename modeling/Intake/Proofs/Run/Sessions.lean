import Intake.Proofs.Document.Histories
import Intake.Proofs.Drive.Twins
import Intake.Proofs.Slack.Twins

/-!
# Sessions

A session with a connector goes on step by step: it lists documents, calls the operations of those
that it holds, works on them, makes whole runs and cleans up, in any order. What there is to be seen
of it is kept: the answer of each step, and what the documents tell and all files after it. Sessions
with connectors that are twins show the same.
-/

namespace Intake

open Files Http

variable {σ τ : Type}

/-! ## Steps -/

/-- What comes of a step. -/
inductive Answer where
  | done (r : Except Fault Unit)
  | there (r : Except Fault Bool)
  | window (r : Except Fault Time.Window)
  | worked (r : Ending Outcome)
  | ran (r : Ending (Except Fault Summary))
  /-- No document is held at the place. -/
  | nothing

/-- Performs a call; gives its whole answer. -/
def Document.Call.answer (d : Document σ) (w : World σ) :
    Document.Call → Answer × Document σ × World σ
  | .isThere =>
    let (r, d, remote) := d.isThere w.remote
    (.there r, d, { w with remote := remote })
  | .fetch =>
    let (r, d, w) := d.fetch w
    (.done r, d, w)
  | .findWindow =>
    let (r, d, remote) := d.findWindow w.remote
    (.window r, d, { w with remote := remote })
  | .resetWindow => (.done (.ok ()), d.resetWindow, w)
  | .cleanUp => (.done (.ok ()), d, { w with files := d.cleanUp w.files })

/-- Where a session stands: the documents that it holds, and the world. -/
structure Session (σ : Type) where
  documents : List (Document σ)
  world : World σ

namespace Session

inductive Step where
  /-- Makes the download directory. -/
  | prepare
  /-- Lists the documents; they are held besides those that are held already. -/
  | enumerate
  /-- Calls an operation of the document at a place. -/
  | call (place : Nat) (call : Document.Call)
  /-- Works on the document at a place, which is not held any longer. -/
  | work (place : Nat) (plan : Plan)
  /-- Makes a whole run. -/
  | run (processor : Processor) (conditions : Conditions) (schedule : Schedule)
  /-- Removes empty directories. -/
  | cleanUp
  /-- Somebody else changes files. -/
  | meanwhile (change : FileSystem → FileSystem)

/-- The document at a place, with those before and after it. -/
def pick (s : Session σ) (place : Nat) :
    Option (List (Document σ) × Document σ × List (Document σ)) :=
  match s.documents.drop place with
  | [] => none
  | d :: after => some (s.documents.take place, d, after)

/-- Takes a step. -/
def take (c : Connector σ) (s : Session σ) : Step → Answer × Session σ
  | .prepare =>
    let (r, files) := c.prepare s.world.files
    (.done r, ⟨s.documents, files, s.world.remote⟩)
  | .enumerate =>
    match c.documents s.world.remote with
    | (.error f, remote) => (.done (.error f), ⟨s.documents, s.world.files, remote⟩)
    | (.ok ds, remote) => (.done (.ok ()), ⟨s.documents ++ ds, s.world.files, remote⟩)
  | .call place call =>
    match s.pick place with
    | none => (.nothing, s)
    | some (before, d, after) =>
      let (answer, d, w) := call.answer d s.world
      (answer, ⟨before ++ d :: after, w⟩)
  | .work place plan =>
    match s.pick place with
    | none => (.nothing, s)
    | some (before, d, after) =>
      let (r, w) := d.work plan s.world
      (.worked r, ⟨before ++ after, w⟩)
  | .run processor conditions schedule =>
    let (r, w) := c.run processor conditions schedule s.world
    (.ran r, ⟨s.documents, w⟩)
  | .cleanUp => (.done (.ok ()), ⟨s.documents, c.cleanUp s.world.files, s.world.remote⟩)
  | .meanwhile change => (.done (.ok ()), ⟨s.documents, change s.world.files, s.world.remote⟩)

end Session

/-! ## Sights -/

/-- What a document tells of itself. -/
structure Document.View where
  locator : String
  extension : String
  settings : Settings
  stagingPath : Path
  outputPath : Path
  presence : Presence
  window : Option Time.Window
  hasOutput : Bool
  /-- The document as it is printed. -/
  text : String

def Document.view (d : Document σ) (fs : FileSystem) : Document.View :=
  ⟨d.locator, d.source.extension, d.settings, d.stagingPath, d.outputPath, d.presence, d.window,
    d.hasOutput fs, d.describe⟩

namespace Session

/-- What there is to be seen after a step. -/
structure Sight where
  answer : Answer
  documents : List Document.View
  files : FileSystem

/-- Takes some steps; gives what was seen after each of them. -/
def play (c : Connector σ) : List Step → Session σ → List Sight × Session σ
  | [], s => ([], s)
  | step :: rest, s =>
    let (answer, s) := s.take c step
    let (later, last) := play c rest s
    (⟨answer, s.documents.map (·.view s.world.files), s.world.files⟩ :: later, last)

end Session

/-! ## Sessions of twins -/

section Twins

variable {R : σ → τ → Prop} {w : World σ} {v : World τ}

theorem Document.Twin.answer {d : Document σ} {e : Document τ} (h : d.Twin R e)
    (call : Document.Call) (hw : World.Twin R w v) :
    InStep Eq (InStep (Document.Twin R) (World.Twin R)) (call.answer d w) (call.answer e v) := by
  cases call with
  | isThere =>
      obtain ⟨r, ⟨d', x'⟩, ⟨e', y'⟩, hx, hy, hd, hr⟩ := (h.isThere hw.remote).same
      unfold Document.Call.answer
      rw [hx, hy]
      exact ⟨rfl, hd, hw.files, hr⟩
  | fetch =>
      obtain ⟨r, ⟨d', w'⟩, ⟨e', v'⟩, hx, hy, hd, hw'⟩ := (h.fetch hw).same
      unfold Document.Call.answer
      rw [hx, hy]
      exact ⟨rfl, hd, hw'⟩
  | findWindow =>
      obtain ⟨r, ⟨d', x'⟩, ⟨e', y'⟩, hx, hy, hd, hr⟩ := (h.findWindow hw.remote).same
      unfold Document.Call.answer
      rw [hx, hy]
      exact ⟨rfl, hd, hw.files, hr⟩
  | resetWindow => exact ⟨rfl, h.resetWindow, hw⟩
  | cleanUp =>
      refine ⟨rfl, h, ?_, hw.remote⟩
      show d.cleanUp w.files = e.cleanUp v.files
      rw [h.cleanUp, hw.files]

theorem Document.Twin.view {d : Document σ} {e : Document τ} (h : d.Twin R e) (fs : FileSystem) :
    d.view fs = e.view fs := by
  unfold Document.view
  rw [h.locator, h.source.extension, h.settings, h.stagingPath, h.outputPath, h.presence, h.window,
    h.hasOutput, h.describe]

namespace Session

structure Twin (R : σ → τ → Prop) (s : Session σ) (t : Session τ) : Prop where
  documents : List.Forall₂ (Document.Twin R) s.documents t.documents
  world : World.Twin R s.world t.world

namespace Twin

variable {c : Connector σ} {k : Connector τ} {s : Session σ} {t : Session τ}

theorem pick (h : s.Twin R t) (place : Nat) :
    s.pick place = none ∧ t.pick place = none ∨
      ∃ before d after before' e after', s.pick place = some (before, d, after) ∧
        t.pick place = some (before', e, after') ∧
        List.Forall₂ (Document.Twin R) before before' ∧ d.Twin R e ∧
        List.Forall₂ (Document.Twin R) after after' := by
  have hfront := List.forall₂_take place h.documents
  unfold Session.pick
  rcases forall₂_drop_cases h.documents place with
    ⟨hleft, hright⟩ | ⟨d, after, e, after', hleft, hright, hd, hafter⟩
  · rw [hleft, hright]
    exact Or.inl ⟨rfl, rfl⟩
  · rw [hleft, hright]
    exact Or.inr ⟨_, d, after, _, e, after', rfl, rfl, hfront, hd, hafter⟩

/-- Sessions of twins take a step together. -/
theorem take (h : s.Twin R t) (hc : c.Twin R k) (step : Step) :
    InStep Eq (Twin R) (s.take c step) (t.take k step) := by
  have hfiles := h.world.files
  cases step with
  | prepare =>
      rw [Session.take, Session.take]
      rw [hc.prepare, hfiles]
      exact ⟨rfl, h.documents, rfl, h.world.remote⟩
  | enumerate =>
      rw [Session.take, Session.take]
      rcases (hc.documents h.world.remote).answered with
        ⟨f, x', y', hx, hy, hr⟩ | ⟨ds, es, x', y', hx, hy, hall, hr⟩
      · rw [hx, hy]
        exact ⟨rfl, h.documents, hfiles, hr⟩
      · rw [hx, hy]
        exact ⟨rfl, List.rel_append h.documents hall, hfiles, hr⟩
  | call place call =>
      rw [Session.take, Session.take]
      rcases h.pick place with
        ⟨hx, hy⟩ | ⟨before, d, after, before', e, after', hx, hy, hbefore, hd, hafter⟩
      · rw [hx, hy]
        exact ⟨rfl, h⟩
      · rw [hx, hy]
        obtain ⟨answer, ⟨d', w'⟩, ⟨e', v'⟩, hx', hy', hd', hw'⟩ := (hd.answer call h.world).same
        simp only [hx', hy']
        exact ⟨rfl, List.rel_append hbefore (.cons hd' hafter), hw'⟩
  | work place plan =>
      rw [Session.take, Session.take]
      rcases h.pick place with
        ⟨hx, hy⟩ | ⟨before, d, after, before', e, after', hx, hy, hbefore, hd, hafter⟩
      · rw [hx, hy]
        exact ⟨rfl, h⟩
      · rw [hx, hy]
        obtain ⟨r, w', v', hx', hy', hw'⟩ := (hd.work plan h.world).same
        simp only [hx', hy']
        exact ⟨rfl, List.rel_append hbefore hafter, hw'⟩
  | run processor conditions schedule =>
      obtain ⟨r, w', v', hx, hy, hw'⟩ := (hc.run processor conditions schedule h.world).same
      rw [Session.take, Session.take]
      rw [hx, hy]
      exact ⟨rfl, h.documents, hw'⟩
  | cleanUp =>
      rw [Session.take, Session.take]
      rw [hc.cleanUp, hfiles]
      exact ⟨rfl, h.documents, rfl, h.world.remote⟩
  | meanwhile change =>
      rw [Session.take, Session.take]
      rw [hfiles]
      exact ⟨rfl, h.documents, rfl, h.world.remote⟩

theorem views (h : s.Twin R t) (fs : FileSystem) :
    s.documents.map (·.view fs) = t.documents.map (·.view fs) := by
  rw [← List.forall₂_eq_eq_eq, List.forall₂_map_left_iff, List.forall₂_map_right_iff]
  exact h.documents.imp fun _ _ hd => hd.view fs

end Twin

/-- The same is seen of sessions of twins. -/
theorem twin_play {c : Connector σ} {k : Connector τ} (hc : c.Twin R k) (steps : List Step) :
    ∀ {s : Session σ} {t : Session τ}, s.Twin R t →
      InStep Eq (Twin R) (play c steps s) (play k steps t) := by
  induction steps with
  | nil => exact fun h => ⟨rfl, h⟩
  | cons step rest ih =>
      intro s t h
      obtain ⟨answer, s', t', hs, ht, h'⟩ := (h.take hc step).same
      obtain ⟨later, s'', t'', hs', ht', h''⟩ := (ih h').same
      unfold play
      rw [hs, ht]
      simp only [hs', ht', h'.world.files, h'.views]
      exact ⟨rfl, h''⟩

end Session

end Twins

end Intake
