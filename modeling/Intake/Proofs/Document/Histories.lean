import Intake.Proofs.Document.Fetch
import Intake.Proofs.Time.Window

/-!
# Histories of a document

A history is any sequence of calls of the operations of a document. Each call meets the
files and the remote system in whatever state they are by then, so nothing is assumed of
the answers. What holds of presence and window in every history follows from what one call
keeps.
-/

namespace Intake.Document

open Files

variable {σ : Type}

inductive Call where
  | isThere
  | fetch
  | findWindow
  | resetWindow
  | cleanUp

/-- Performs a call; of its answer only the fault is kept. -/
def Call.perform (d : Document σ) (w : World σ) : Call → Except Fault Unit × Document σ × World σ
  | .isThere =>
    let (r, d, remote) := d.isThere w.remote
    (r.map fun _ => (), d, { w with remote := remote })
  | .fetch => d.fetch w
  | .findWindow =>
    let (r, d, remote) := d.findWindow w.remote
    (r.map fun _ => (), d, { w with remote := remote })
  | .resetWindow => (.ok (), d.resetWindow, w)
  | .cleanUp => (.ok (), d, { w with files := d.cleanUp w.files })

/-- The document after some calls, each in its own world. -/
def after (d : Document σ) (history : List (Call × World σ)) : Document σ :=
  history.foldl (fun d call => (call.1.perform d call.2).2.1) d

/-! ## What a probe teaches -/

theorem observed_eq_ok {found : Probe} {presence : Presence} {window : Time.Window}
    (h : observed found = .ok (presence, window)) : presence ≠ .unknown ∧ window.InOrder := by
  cases found with
  | absent =>
      cases h
      exact ⟨by simp, .empty⟩
  | present stamps =>
      rw [observed] at h
      cases hwindow : windowOf stamps with
      | error f =>
          rw [hwindow] at h
          cases h
      | ok w =>
          rw [hwindow] at h
          cases h
          exact ⟨by simp, inOrder_windowOf hwindow⟩

theorem learn_error {d : Document σ} {answer : Except Fault Probe} {f : Fault}
    (h : (d.learn answer).1 = .error f) : (d.learn answer).2 = d := by
  cases answer with
  | error g => rfl
  | ok found =>
      rw [learn] at h ⊢
      cases hfound : observed found with
      | error g => rfl
      | ok known =>
          rw [hfound] at h
          cases h

theorem learn_ok {d : Document σ} {answer : Except Fault Probe}
    (h : (d.learn answer).1 = .ok ()) :
    ∃ presence window, presence ≠ .unknown ∧ window.InOrder ∧
      (d.learn answer).2 =
        { d with presence := presence, window := some (d.window.getD window) } := by
  cases answer with
  | error g => cases h
  | ok found =>
      rw [learn] at h ⊢
      cases hfound : observed found with
      | error g =>
          rw [hfound] at h
          cases h
      | ok known =>
          obtain ⟨presence, window⟩ := known
          obtain ⟨hpresence, hwindow⟩ := observed_eq_ok hfound
          exact ⟨presence, window, hpresence, hwindow, rfl⟩

/-! ## One call -/

/-- What is known of a document fits together: nothing is kept of a document that was never
found out about, and a window is in order. -/
structure Sound (d : Document σ) : Prop where
  unknown : d.presence = .unknown → d.window = none
  window : ∀ window, d.window = some window → window.InOrder

/-- How knowledge changes in one call other than a reset: presence is not forgotten, a
window stays, and a new one is in order. -/
structure Learned (d d' : Document σ) : Prop where
  presence : d'.presence = .unknown → d.presence = .unknown ∧ d'.window = d.window
  kept : ∀ window, d.window = some window → d'.window = some window
  inOrder : ∀ window, d'.window = some window → d.window = some window ∨ window.InOrder

theorem Learned.refl (d : Document σ) : Learned d d :=
  ⟨fun h => ⟨h, rfl⟩, fun _ h => h, fun _ h => Or.inl h⟩

theorem Learned.sound {d d' : Document σ} (h : Learned d d') (hsound : d.Sound) : d'.Sound where
  unknown hunknown := by
    obtain ⟨hbefore, hwindow⟩ := h.presence hunknown
    rw [hwindow, hsound.unknown hbefore]
  window window hwindow := by
    rcases h.inOrder window hwindow with hbefore | hinOrder
    · exact hsound.window window hbefore
    · exact hinOrder

theorem learned_learn (d : Document σ) (answer : Except Fault Probe) :
    Learned d (d.learn answer).2 := by
  cases h : (d.learn answer).1 with
  | error f =>
      rw [learn_error h]
      exact .refl d
  | ok u =>
      obtain ⟨presence, window, hpresence, hinOrder, hd⟩ := learn_ok h
      rw [hd]
      refine ⟨fun hunknown => absurd hunknown hpresence, ?_, ?_⟩
      · intro old hold
        simp [hold]
      · intro new hnew
        cases hold : d.window with
        | none =>
            right
            simp only [hold, Option.getD_none, Option.some.injEq] at hnew
            exact hnew ▸ hinOrder
        | some old =>
            left
            simpa [hold] using hnew

theorem probe_eq (d : Document σ) (remote : σ) :
    d.probe remote =
      ((d.learn (d.source.probe remote).1).1, (d.learn (d.source.probe remote).1).2,
        (d.source.probe remote).2) := rfl

/-- Presence that was found out, where the window stays or is one of a download. -/
theorem Learned.of_present {d d' : Document σ} (hpresence : d'.presence ≠ .unknown)
    (hwindow : d'.window = d.window ∨ d.window = none ∧
      ∃ window, d'.window = some window ∧ window.InOrder) : Learned d d' where
  presence h := absurd h hpresence
  kept window h := by
    rcases hwindow with hsame | ⟨hnone, _⟩
    · rw [hsame, h]
    · rw [hnone] at h
      cases h
  inOrder window h := by
    rcases hwindow with hsame | ⟨_, window', hnew, hinOrder⟩
    · exact Or.inl (hsame ▸ h)
    · rw [hnew] at h
      cases h
      exact Or.inr hinOrder

theorem learned_receive (d : Document σ) (fs : FileSystem) (answer : Except Fault Download) :
    Learned d (d.receive fs answer).2.1 := by
  cases h : (d.receive fs answer).1 with
  | error f =>
      rw [(receive_error h).1]
      exact .of_present (by simp [lost]) (Or.inl rfl)
  | ok u =>
      obtain ⟨download, window, _, _, hwindow, _, hd, _⟩ := receive_ok h
      rw [hd]
      refine .of_present (by simp [held]) ?_
      rcases windowFor_eq_ok.mp hwindow with hsome | ⟨hnone, hnew⟩
      · exact Or.inl hsome.symm
      · exact Or.inr ⟨hnone, window, rfl, inOrder_windowOf hnew⟩

theorem learned_fetch (d : Document σ) (w : World σ) : Learned d (d.fetch w).2.1 := by
  rw [fetch]
  split
  · exact .of_present (by simp [held]) (Or.inl rfl)
  · exact learned_receive d w.files _

/-- Either the answer is known, or the source is probed and its answer is taken over. -/
theorem isThere_eq (d : Document σ) (remote : σ) :
    (∃ answer, d.isThere remote = (.ok answer, d, remote)) ∨
      ((d.isThere remote).1.map fun _ => ()) = (d.learn (d.source.probe remote).1).1 ∧
      (d.isThere remote).2.1 = (d.learn (d.source.probe remote).1).2 := by
  rw [isThere, probe_eq]
  split
  · right
    cases h : (d.learn (d.source.probe remote).1).1 <;> exact ⟨rfl, rfl⟩
  · exact Or.inl ⟨_, rfl⟩

theorem findWindow_eq (d : Document σ) (remote : σ) :
    (∃ window, d.findWindow remote = (.ok window, d, remote)) ∨
      ((d.findWindow remote).1.map fun _ => ()) = (d.learn (d.source.probe remote).1).1 ∧
      (d.findWindow remote).2.1 = (d.learn (d.source.probe remote).1).2 := by
  rw [findWindow, probe_eq]
  split
  · exact Or.inl ⟨_, rfl⟩
  · right
    cases h : (d.learn (d.source.probe remote).1).1 <;> exact ⟨rfl, rfl⟩

/-- A question is answered from what is known, or as the source answers a probe. -/
theorem perform_question (d : Document σ) (w : World σ) {call : Call}
    (hcall : call = .isThere ∨ call = .findWindow) :
    ((call.perform d w).1 = .ok () ∧ (call.perform d w).2.1 = d) ∨
      (call.perform d w).1 = (d.learn (d.source.probe w.remote).1).1 ∧
      (call.perform d w).2.1 = (d.learn (d.source.probe w.remote).1).2 := by
  rcases hcall with rfl | rfl
  · rw [Call.perform]
    rcases isThere_eq d w.remote with ⟨answer, h⟩ | h
    · rw [h]
      exact Or.inl ⟨rfl, rfl⟩
    · exact Or.inr h
  · rw [Call.perform]
    rcases findWindow_eq d w.remote with ⟨window, h⟩ | h
    · rw [h]
      exact Or.inl ⟨rfl, rfl⟩
    · exact Or.inr h

theorem learned_question (d : Document σ) (w : World σ) {call : Call}
    (hcall : call = .isThere ∨ call = .findWindow) : Learned d (call.perform d w).2.1 := by
  rcases perform_question d w hcall with ⟨_, heq⟩ | ⟨_, heq⟩
  · rw [heq]
    exact .refl d
  · rw [heq]
    exact learned_learn d _

/-- A call teaches something of the document, or resets its window. -/
theorem learned_perform (d : Document σ) (w : World σ) (call : Call)
    (h : call ≠ .resetWindow) : Learned d (call.perform d w).2.1 := by
  cases call with
  | isThere => exact learned_question d w (Or.inl rfl)
  | fetch =>
      rw [Call.perform]
      exact learned_fetch d w
  | findWindow => exact learned_question d w (Or.inr rfl)
  | resetWindow => exact absurd rfl h
  | cleanUp => exact .refl d

theorem sound_perform {d : Document σ} (hsound : d.Sound) (w : World σ) (call : Call) :
    (call.perform d w).2.1.Sound := by
  by_cases h : call = .resetWindow
  · rw [h]
    refine ⟨fun _ => rfl, ?_⟩
    intro window hnone
    cases hnone
  · exact (learned_perform d w call h).sound hsound

theorem presence_perform {d : Document σ} (hknown : d.presence ≠ .unknown) (w : World σ)
    (call : Call) : (call.perform d w).2.1.presence ≠ .unknown := by
  by_cases h : call = .resetWindow
  · rw [h]
    exact hknown
  · exact fun hunknown => hknown ((learned_perform d w call h).presence hunknown).1

/-- A question that is not answered teaches nothing. -/
theorem perform_error {d : Document σ} {w : World σ} {call : Call} {f : Fault}
    (hcall : call = .isThere ∨ call = .findWindow) (h : (call.perform d w).1 = .error f) :
    (call.perform d w).2.1 = d := by
  rcases perform_question d w hcall with ⟨_, heq⟩ | ⟨hfault, heq⟩
  · exact heq
  · rw [heq, learn_error (hfault ▸ h)]

/-! ## Whole histories -/

theorem sound_after {d : Document σ} (hsound : d.Sound) (history : List (Call × World σ)) :
    (d.after history).Sound := by
  induction history generalizing d with
  | nil => exact hsound
  | cons call rest ih => exact ih (sound_perform hsound call.2 call.1)

theorem presence_after {d : Document σ} (hknown : d.presence ≠ .unknown)
    (history : List (Call × World σ)) : (d.after history).presence ≠ .unknown := by
  induction history generalizing d with
  | nil => exact hknown
  | cons call rest ih => exact ih (presence_perform hknown call.2 call.1)

theorem window_after {d : Document σ} {window : Time.Window} (hwindow : d.window = some window)
    {history : List (Call × World σ)} (hnoReset : ∀ call ∈ history, call.1 ≠ .resetWindow) :
    (d.after history).window = some window := by
  induction history generalizing d with
  | nil => exact hwindow
  | cons call rest ih =>
      have hcall := hnoReset call List.mem_cons_self
      refine ih ((learned_perform d call.2 call.1 hcall).kept window hwindow) ?_
      exact fun call' h => hnoReset call' (List.mem_cons_of_mem _ h)

theorem sound_ofSource (settings : Settings) (source : Source σ) :
    (ofSource settings source).Sound := by
  refine ⟨fun _ => rfl, ?_⟩
  intro window h
  cases h

/-- **What holds of a document in every history.** Of a document that is not known to be
there or not, no window is kept; presence that was found out is never forgotten; a window
has both bounds in their order or neither; a window that is kept stays the same until it is
reset, whatever is reported later; a question that ends with a fault changes nothing, nor
does cleaning up. -/
theorem lifecycle_invariant (settings : Settings) (source : Source σ)
    (history : List (Call × World σ)) :
    let d := (ofSource settings source).after history
    (d.presence = .unknown → d.window = none) ∧
    (d.presence ≠ .unknown → ∀ later, (d.after later).presence ≠ .unknown) ∧
    (∀ window, d.window = some window → window.InOrder) ∧
    (∀ window later, d.window = some window → (∀ call ∈ later, call.1 ≠ Call.resetWindow) →
      (d.after later).window = some window) ∧
    (∀ call w f, call = .isThere ∨ call = .findWindow → (Call.perform d w call).1 = .error f →
      (Call.perform d w call).2.1 = d) ∧
    ∀ w, (Call.perform d w .cleanUp).2.1 = d := by
  intro d
  have hsound : d.Sound := sound_after (sound_ofSource settings source) history
  refine ⟨hsound.unknown, ?_, hsound.window, ?_, ?_, fun _ => rfl⟩
  · exact fun hknown later => presence_after hknown later
  · exact fun window later hwindow hnoReset => window_after hwindow hnoReset
  · exact fun call w f hcall hfault => perform_error hcall hfault

end Intake.Document
