import Intake.Proofs.Document.Histories
import Intake.Proofs.Document.Noting

/-!
# What is asked of a source

A source that notes what it is asked shows how often a document turns to it. Each probe that
succeeds makes a window known, which only a reset makes unknown again; presence that was found out
is never asked for again; and a staged file stays until it is cleaned up, so until then nothing is
downloaded. How often a source is asked is bounded by that, whatever it answers.
-/

namespace Intake

open Files

variable {σ : Type}

namespace Asked

/-- Notes a question with its answer. -/
def exchange (_ : Source σ) (asked : Asked) : Asked := asked

/-- Whether a probe succeeded: it was answered, and its stamps could be read. -/
def finds : Asked → Bool
  | .probe (.ok found) => (Document.observed found).isOk
  | _ => false

def isDownload : Asked → Bool
  | .probe _ => false
  | .download _ => true

end Asked

namespace Document

/-- What is asked in a call. -/
def Call.asks (d : Document σ) (w : World σ) (call : Call) : List Asked :=
  (call.perform (d.noting Asked.exchange) ⟨w.files, w.remote, []⟩).2.2.remote.2

/-! ## Probes and downloads of a call -/

section Calls

variable {d : Document σ} {w : World σ}

/-- What comes of a probe in a world. -/
def probed (d : Document σ) (w : World σ) : Except Fault Unit × Document σ × World σ :=
  ((d.learn (d.source.probe w.remote).1).1, (d.learn (d.source.probe w.remote).1).2,
    ⟨w.files, (d.source.probe w.remote).2⟩)

theorem perform_isThere_of_unknown (h : d.presence = .unknown) :
    Call.isThere.perform d w = d.probed w := by
  rw [Call.perform, isThere, if_pos h, probe_eq, probed]
  cases (d.learn (d.source.probe w.remote).1).1 <;> rfl

theorem perform_isThere_of_known (h : d.presence ≠ .unknown) :
    Call.isThere.perform d w = (.ok (), d, w) := by
  rw [Call.perform, isThere, if_neg h]
  rfl

theorem perform_findWindow_of_none (h : d.window = none) :
    Call.findWindow.perform d w = d.probed w := by
  rw [Call.perform, findWindow, h, probe_eq, probed]
  cases (d.learn (d.source.probe w.remote).1).1 <;> rfl

theorem perform_findWindow_of_some {window : Time.Window} (h : d.window = some window) :
    Call.findWindow.perform d w = (.ok (), d, w) := by
  rw [Call.perform, findWindow, h]
  rfl

variable (d w)

/-- The source is asked whether it is there as long as that is not known. -/
theorem asks_isThere : Call.isThere.asks d w =
    if d.presence = .unknown then [.probe (d.source.probe w.remote).1] else [] := by
  rw [Call.asks]
  by_cases h : d.presence = .unknown
  · rw [if_pos h, perform_isThere_of_unknown (d := d.noting Asked.exchange) h]
    rfl
  · rw [if_neg h, perform_isThere_of_known (d := d.noting Asked.exchange) h]

/-- The source is asked for a window as long as none is known. -/
theorem asks_findWindow : Call.findWindow.asks d w =
    if d.window = none then [.probe (d.source.probe w.remote).1] else [] := by
  rw [Call.asks]
  cases h : d.window with
  | none =>
      rw [if_pos rfl, perform_findWindow_of_none (d := d.noting Asked.exchange) h]
      rfl
  | some window =>
      rw [if_neg (Option.some_ne_none window),
        perform_findWindow_of_some (d := d.noting Asked.exchange) h]

theorem asks_resetWindow : Call.resetWindow.asks d w = [] := rfl

theorem asks_cleanUp : Call.cleanUp.asks d w = [] := rfl

/-- The source is asked for its content as long as there is no staged file. -/
theorem asks_fetch : Call.fetch.asks d w =
    if d.isStaged w.files then [] else [.download (d.source.download w.remote).1] := by
  rw [Call.asks, Call.perform]
  cases h : d.isStaged w.files with
  | true =>
      rw [fetch_of_staged (d := d.noting Asked.exchange) (w := ⟨w.files, w.remote, []⟩) h]
      rfl
  | false =>
      rw [fetch_of_free (d := d.noting Asked.exchange) (w := ⟨w.files, w.remote, []⟩) h]
      rfl

/-! ## What noting leaves as it is -/

theorem probed_noting (asked : List Asked) :
    (d.noting Asked.exchange).probed ⟨w.files, w.remote, asked⟩ =
      ((d.probed w).1, (d.probed w).2.1.noting Asked.exchange,
        ⟨(d.probed w).2.2.files, (d.probed w).2.2.remote,
          asked ++ [.probe (d.source.probe w.remote).1]⟩) := by
  rw [probed, learn_noting]
  rfl

/-- A call comes to the same, whether it is noted what is asked in it or not. -/
theorem perform_noting (call : Call) (asked : List Asked) :
    call.perform (d.noting Asked.exchange) ⟨w.files, w.remote, asked⟩ =
      ((call.perform d w).1, (call.perform d w).2.1.noting Asked.exchange,
        ⟨(call.perform d w).2.2.files, (call.perform d w).2.2.remote,
          asked ++ call.asks d w⟩) := by
  cases call with
  | isThere =>
      rw [asks_isThere]
      by_cases h : d.presence = .unknown
      · rw [if_pos h, perform_isThere_of_unknown h,
          perform_isThere_of_unknown (d := d.noting Asked.exchange) h, probed_noting]
      · rw [if_neg h, perform_isThere_of_known h,
          perform_isThere_of_known (d := d.noting Asked.exchange) h, List.append_nil]
  | findWindow =>
      rw [asks_findWindow]
      cases h : d.window with
      | none =>
          rw [if_pos rfl, perform_findWindow_of_none h,
            perform_findWindow_of_none (d := d.noting Asked.exchange) h, probed_noting]
      | some window =>
          rw [if_neg (Option.some_ne_none window), perform_findWindow_of_some h,
            perform_findWindow_of_some (d := d.noting Asked.exchange) h, List.append_nil]
  | fetch =>
      rw [asks_fetch, Call.perform, Call.perform]
      cases h : d.isStaged w.files with
      | true =>
          rw [fetch_of_staged h,
            fetch_of_staged (d := d.noting Asked.exchange) (w := ⟨w.files, w.remote, asked⟩) h,
            if_pos rfl, List.append_nil]
          rfl
      | false =>
          rw [fetch_of_free h,
            fetch_of_free (d := d.noting Asked.exchange) (w := ⟨w.files, w.remote, asked⟩) h,
            if_neg Bool.false_ne_true, receive_noting]
          rfl
  | resetWindow =>
      rw [asks_resetWindow, List.append_nil]
      rfl
  | cleanUp =>
      rw [asks_cleanUp, List.append_nil]
      rfl

end Calls

/-! ## Histories with their questions -/

def Call.isReset : Call → Bool
  | .resetWindow => true
  | _ => false

/-- A call of a history, with what was asked in it and what it came to. -/
structure Event where
  call : Call
  asked : List Asked
  result : Except Fault Unit

namespace Event

/-- Whether the call finds out about presence: a question that was answered, or any fetch. -/
def Settles (e : Event) : Prop :=
  (e.call = .isThere ∨ e.call = .findWindow) ∧ e.result = .ok () ∨ e.call = .fetch

/-- Whether the call downloaded the content and staged it. -/
def stages (e : Event) : Bool := e.asked.any Asked.isDownload && e.result.isOk

end Event

/-- What happens in a call. -/
def Call.event (d : Document σ) (w : World σ) (call : Call) : Event :=
  ⟨call, call.asks d w, (call.perform d w).1⟩

theorem after_cons (d : Document σ) (call : Call) (w : World σ) (rest : List (Call × World σ)) :
    d.after ((call, w) :: rest) = (call.perform d w).2.1.after rest := rfl

/-- What happens in a history, call by call. -/
def events (d : Document σ) : List (Call × World σ) → List Event
  | [] => []
  | (call, w) :: rest => call.event d w :: (call.perform d w).2.1.events rest

/-- Each event is one of a call, before and after which there are histories as well. -/
theorem events_eq_append_cons {d : Document σ} {history : List (Call × World σ)}
    {front back : List Event} {e : Event} (h : d.events history = front ++ e :: back) :
    ∃ earlier call w later, history = earlier ++ (call, w) :: later ∧
      front = d.events earlier ∧ e = call.event (d.after earlier) w ∧
      back = (call.perform (d.after earlier) w).2.1.events later := by
  induction front generalizing d history with
  | nil =>
      cases history with
      | nil => cases h
      | cons first rest =>
          obtain ⟨rfl, rfl⟩ := List.cons.inj h
          exact ⟨[], first.1, first.2, rest, rfl, rfl, rfl, rfl⟩
  | cons e' front ih =>
      cases history with
      | nil => cases h
      | cons first rest =>
          obtain ⟨rfl, htail⟩ := List.cons.inj h
          obtain ⟨earlier, call, w, later, rfl, rfl, rfl, rfl⟩ := ih htail
          exact ⟨first :: earlier, call, w, later, rfl, rfl, rfl, rfl⟩

/-! ## Probes that succeed -/

/-- The number of probes that succeeded. -/
def findings (es : List Event) : Nat := (es.flatMap (·.asked)).countP Asked.finds

theorem findings_cons (e : Event) (es : List Event) :
    findings (e :: es) = e.asked.countP Asked.finds + findings es := by
  rw [findings, List.flatMap_cons, List.countP_append, findings]

/-- The number of windows that are still to be found. -/
def sought (d : Document σ) : Nat := if d.window = none then 1 else 0

theorem sought_le_one (d : Document σ) : d.sought ≤ 1 := by
  unfold sought
  split
  · exact Nat.le_refl 1
  · exact Nat.zero_le 1

theorem Learned.sought_le {d d' : Document σ} (h : Learned d d') : d'.sought ≤ d.sought := by
  unfold sought
  cases hwindow : d.window with
  | none =>
      rw [if_pos rfl]
      exact d'.sought_le_one
  | some window => rw [h.kept window hwindow]

/-- A probe succeeds where the document learns from it. -/
theorem finds_probe (d : Document σ) (answer : Except Fault Probe) :
    Asked.finds (.probe answer) = (d.learn answer).1.isOk := by
  cases answer with
  | error f => rfl
  | ok found =>
      rw [Asked.finds, learn]
      cases observed found with
      | error f => rfl
      | ok known => rfl

/-- A probe that succeeds leaves no window to be found. -/
theorem findings_learn (d : Document σ) (answer : Except Fault Probe) :
    [Asked.probe answer].countP Asked.finds + (d.learn answer).2.sought ≤ 1 := by
  rw [List.countP_singleton, d.finds_probe]
  cases h : (d.learn answer).1 with
  | error f =>
      have hfailed : (Except.error f : Except Fault Unit).isOk = false := rfl
      rw [learn_error h, hfailed, if_neg Bool.false_ne_true, Nat.zero_add]
      exact d.sought_le_one
  | ok u =>
      obtain ⟨presence, window, _, _, hd⟩ := learn_ok h
      have hfound : (d.learn answer).2.sought = 0 := by
        rw [hd]
        rfl
      rw [hfound]
      exact Nat.le_refl 1

/-- **One call.** A probe that succeeds finds the window that was sought, and only a reset makes
one sought again. -/
theorem findings_perform {d : Document σ} (hsound : d.Sound) (w : World σ) (call : Call) :
    (call.asks d w).countP Asked.finds + (call.perform d w).2.1.sought ≤
      d.sought + (if call.isReset then 1 else 0) := by
  have hsilent (hnone : (call.asks d w).countP Asked.finds = 0) (h : call ≠ .resetWindow) :
      (call.asks d w).countP Asked.finds + (call.perform d w).2.1.sought ≤
        d.sought + (if call.isReset then 1 else 0) := by
    rw [hnone, Nat.zero_add]
    exact Nat.le_add_right_of_le (learned_perform d w call h).sought_le
  cases call with
  | isThere =>
      by_cases h : d.presence = .unknown
      · have hsought : d.sought = 1 := if_pos (hsound.unknown h)
        rw [asks_isThere, if_pos h, perform_isThere_of_unknown h, hsought]
        exact Nat.le_add_right_of_le (findings_learn d _)
      · apply hsilent _ Call.noConfusion
        rw [asks_isThere, if_neg h, List.countP_nil]
  | findWindow =>
      by_cases h : d.window = none
      · have hsought : d.sought = 1 := if_pos h
        rw [asks_findWindow, if_pos h, perform_findWindow_of_none h, hsought]
        exact Nat.le_add_right_of_le (findings_learn d _)
      · apply hsilent _ Call.noConfusion
        rw [asks_findWindow, if_neg h, List.countP_nil]
  | fetch =>
      apply hsilent _ Call.noConfusion
      rw [asks_fetch]
      split <;> rfl
  | resetWindow => exact Nat.le_add_left 1 d.sought
  | cleanUp =>
      apply hsilent _ Call.noConfusion
      rw [asks_cleanUp, List.countP_nil]

/-- **Whole histories.** There are at most as many probes that succeed as windows are sought, at
first or after a reset. -/
theorem findings_events {d : Document σ} (hsound : d.Sound) (history : List (Call × World σ)) :
    findings (d.events history) + (d.after history).sought ≤
      d.sought + (d.events history).countP (·.call.isReset) := by
  induction history generalizing d with
  | nil => exact Nat.le_of_eq (Nat.zero_add _)
  | cons first rest ih =>
      obtain ⟨call, w⟩ := first
      have hcall := findings_perform hsound w call
      have hrest := ih (sound_perform hsound w call)
      have hfindings : findings (d.events ((call, w) :: rest)) =
          (call.asks d w).countP Asked.finds +
            findings ((call.perform d w).2.1.events rest) := findings_cons _ _
      have hresets : (d.events ((call, w) :: rest)).countP (·.call.isReset) =
          ((call.perform d w).2.1.events rest).countP (·.call.isReset) +
            (if call.isReset then 1 else 0) := List.countP_cons
      rw [hfindings, hresets, after_cons]
      omega

/-! ## Presence that was found out -/

/-- Presence is known after a question that was answered, and after any fetch. -/
theorem presence_of_settles {d : Document σ} (hsound : d.Sound) {w : World σ} {call : Call}
    (h : (call.event d w).Settles) : (call.perform d w).2.1.presence ≠ .unknown := by
  have hprobed (hok : (d.probed w).1 = .ok ()) : (d.probed w).2.1.presence ≠ .unknown := by
    obtain ⟨presence, window, hpresence, _, hd⟩ := learn_ok hok
    rw [probed, hd]
    exact hpresence
  rcases h with ⟨rfl | rfl, hok⟩ | rfl
  · by_cases hunknown : d.presence = .unknown
    · rw [Call.event, perform_isThere_of_unknown hunknown] at hok
      rw [perform_isThere_of_unknown hunknown]
      exact hprobed hok
    · rw [perform_isThere_of_known hunknown]
      exact hunknown
  · cases hwindow : d.window with
    | none =>
        rw [Call.event, perform_findWindow_of_none hwindow] at hok
        rw [perform_findWindow_of_none hwindow]
        exact hprobed hok
    | some window =>
        -- of a document of which nothing is known no window is kept
        rw [perform_findWindow_of_some hwindow]
        intro hunknown
        rw [hsound.unknown hunknown] at hwindow
        cases hwindow
  · rw [Call.perform]
    cases hfetch : d.fetch w with
    | mk r rest =>
        obtain ⟨d', w'⟩ := rest
        cases r with
        | ok u =>
            rw [(fetch_ok hfetch).present]
            exact Presence.noConfusion
        | error f =>
            rw [(fetch_error hfetch).absent]
            exact Presence.noConfusion

theorem presence_of_mem_events {d : Document σ} (hsound : d.Sound)
    {history : List (Call × World σ)} (h : ∃ e ∈ d.events history, e.Settles) :
    (d.after history).presence ≠ .unknown := by
  induction history generalizing d with
  | nil =>
      obtain ⟨e, he, _⟩ := h
      cases he
  | cons first rest ih =>
      obtain ⟨call, w⟩ := first
      obtain ⟨e, he, hsettles⟩ := h
      rcases List.mem_cons.mp he with rfl | he
      · exact presence_after (presence_of_settles hsound hsettles) rest
      · exact ih (sound_perform hsound w call) ⟨e, he, hsettles⟩

/-! ## Staged files -/

theorem akin_perform (d : Document σ) (w : World σ) (call : Call) :
    Akin d (call.perform d w).2.1 := by
  have hquestion (h : call = .isThere ∨ call = .findWindow) : Akin d (call.perform d w).2.1 := by
    rcases perform_question d w h with ⟨_, heq⟩ | ⟨_, heq⟩
    · rw [heq]
      exact .refl d
    · rw [heq]
      exact d.akin_learn _
  cases call with
  | isThere => exact hquestion (Or.inl rfl)
  | findWindow => exact hquestion (Or.inr rfl)
  | fetch =>
      rw [Call.perform]
      cases h : d.isStaged w.files with
      | true =>
          rw [fetch_of_staged h]
          exact ⟨rfl, rfl⟩
      | false =>
          rw [fetch_of_free h]
          exact d.akin_receive w.files _
  | resetWindow => exact ⟨rfl, rfl⟩
  | cleanUp => exact .refl d

theorem akin_after (d : Document σ) (history : List (Call × World σ)) :
    Akin d (d.after history) := by
  induction history generalizing d with
  | nil => exact .refl d
  | cons first rest ih => exact (d.akin_perform first.2 first.1).trans (ih _)

theorem Akin.isStaged {d d' : Document σ} (h : Akin d d') (fs : FileSystem) :
    d'.isStaged fs = d.isStaged fs := by
  rw [Document.isStaged, Document.isStaged, h.stagingPath]

/-- A staged file stays in every call but a cleaning up that is to remove it. -/
theorem isStaged_perform {d : Document σ} {w : World σ} {call : Call}
    (hstaged : d.isStaged w.files = true)
    (hkept : d.settings.retain = true ∨ call ≠ .cleanUp) :
    d.isStaged (call.perform d w).2.2.files = true := by
  cases call with
  | isThere => exact hstaged
  | findWindow => exact hstaged
  | fetch =>
      rw [Call.perform, fetch_of_staged hstaged]
      exact hstaged
  | resetWindow => exact hstaged
  | cleanUp =>
      rcases hkept with hretain | hother
      · rw [Call.perform, cleanUp_of_retain hretain]
        exact hstaged
      · exact absurd rfl hother

/-- A call that stages is a fetch that found no staged file and leaves one. -/
theorem isStaged_of_stages {d : Document σ} {w : World σ} {call : Call}
    (h : (call.event d w).stages = true) :
    d.isStaged w.files = false ∧ d.isStaged (call.perform d w).2.2.files = true := by
  obtain ⟨hasked, hok⟩ := Bool.and_eq_true_iff.mp h
  change (call.asks d w).any Asked.isDownload = true at hasked
  change (call.perform d w).1.isOk = true at hok
  cases call with
  | isThere =>
      rw [asks_isThere] at hasked
      split at hasked <;> cases hasked
  | findWindow =>
      rw [asks_findWindow] at hasked
      split at hasked <;> cases hasked
  | fetch =>
      rw [asks_fetch] at hasked
      rw [Call.perform] at hok ⊢
      cases hstaged : d.isStaged w.files with
      | true =>
          rw [hstaged] at hasked
          cases hasked
      | false =>
          refine ⟨rfl, ?_⟩
          cases hfetch : d.fetch w with
          | mk r rest =>
              obtain ⟨d', w'⟩ := rest
              rw [hfetch] at hok
              cases r with
              | ok u => exact (fetch_ok hfetch).staged
              | error f => cases hok
  | resetWindow => cases hasked
  | cleanUp => cases hasked

/-- Whether nothing but the calls of a history makes the staged file appear or disappear: each call
finds it as the call before has left it. -/
def LeftAlone (d : Document σ) : List (Call × World σ) → Prop
  | [] => True
  | (call, w) :: rest =>
    (∀ next ∈ rest.head?, d.isStaged next.2.files = d.isStaged (call.perform d w).2.2.files) ∧
      (call.perform d w).2.1.LeftAlone rest

theorem LeftAlone.later {d : Document σ} {earlier rest : List (Call × World σ)}
    (h : d.LeftAlone (earlier ++ rest)) : (d.after earlier).LeftAlone rest := by
  induction earlier generalizing d with
  | nil => exact h
  | cons first earlier ih => exact ih h.2

/-- What a call has staged is still there at a later call if no cleaning up in between is to remove
it. -/
theorem LeftAlone.isStaged {d : Document σ} {call call' : Call} {w w' : World σ}
    {between later : List (Call × World σ)}
    (h : d.LeftAlone ((call, w) :: (between ++ (call', w') :: later)))
    (hstaged : d.isStaged (call.perform d w).2.2.files = true)
    (hkept : d.settings.retain = true ∨ ∀ c ∈ between, c.1 ≠ .cleanUp) :
    d.isStaged w'.files = true := by
  induction between generalizing d call w with
  | nil =>
      rw [h.1 (call', w') rfl]
      exact hstaged
  | cons first between ih =>
      obtain ⟨call₁, w₁⟩ := first
      have hakin := d.akin_perform w call
      have hbefore : (call.perform d w).2.1.isStaged w₁.files = true := by
        rw [hakin.isStaged, h.1 (call₁, w₁) rfl]
        exact hstaged
      rw [← hakin.isStaged]
      rcases hkept with hretain | hother
      · have hretain' : (call.perform d w).2.1.settings.retain = true := by
          rw [hakin.settings]
          exact hretain
        exact ih h.2 (isStaged_perform hbefore (Or.inl hretain')) (Or.inl hretain')
      · obtain ⟨hfirst, hrest⟩ := List.forall_mem_cons.mp hother
        exact ih h.2 (isStaged_perform hbefore (Or.inr hfirst)) (Or.inr hrest)

theorem map_call_events (d : Document σ) (history : List (Call × World σ)) :
    (d.events history).map (·.call) = history.map (·.1) := by
  induction history generalizing d with
  | nil => rfl
  | cons first rest ih =>
      rw [events, List.map_cons, List.map_cons, ih]
      rfl

/-- Between two calls that stage, the staged file was removed. -/
theorem cleanUp_between {d : Document σ} {history : List (Call × World σ)}
    (h : d.LeftAlone history) {front between back : List Event} {e e' : Event}
    (hevents : d.events history = front ++ e :: (between ++ e' :: back))
    (he : e.stages = true) (he' : e'.stages = true) :
    d.settings.retain = false ∧ ∃ c ∈ between, c.call = .cleanUp := by
  obtain ⟨earlier, call, w, rest, rfl, _, rfl, hrest⟩ := events_eq_append_cons hevents
  obtain ⟨mid, call', w', later, rfl, rfl, rfl, _⟩ := events_eq_append_cons hrest.symm
  have hakin := d.akin_after earlier
  have hakin' := ((d.after earlier).akin_perform w call).trans (akin_after _ mid)
  have hfree : (d.after earlier).isStaged w'.files = false := by
    rw [← hakin'.isStaged]
    exact (isStaged_of_stages he').1
  by_contra hkept
  have hkept' : (d.after earlier).settings.retain = true ∨ ∀ c ∈ mid, c.1 ≠ .cleanUp := by
    rw [hakin.settings, or_iff_not_imp_left]
    intro hretain c hc hcleanUp
    -- a cleaning up in between is one of the events there
    have hmem : c.1 ∈ (((call.perform (d.after earlier) w).2.1.events mid).map (·.call)) := by
      rw [map_call_events]
      exact List.mem_map_of_mem hc
    obtain ⟨e'', hmem, hcall⟩ := List.mem_map.mp hmem
    exact hkept ⟨Bool.not_eq_true _ ▸ hretain, e'', hmem, hcall.trans hcleanUp⟩
  rw [h.later.isStaged (isStaged_of_stages he).2 hkept'] at hfree
  cases hfree

/-- What is never met a second time is met at most once. -/
theorem countP_le_one {α : Type} {p : α → Bool} {xs : List α}
    (h : ∀ (front : List α) (x : α) (mid : List α) (y : α) (back : List α),
      xs = front ++ x :: (mid ++ y :: back) → p x = true → ¬p y = true) : xs.countP p ≤ 1 := by
  induction xs with
  | nil => exact Nat.zero_le 1
  | cons x xs ih =>
      by_cases hx : p x = true
      · have hnone : xs.countP p = 0 := by
          rw [List.countP_eq_zero]
          intro y hy
          obtain ⟨mid, back, rfl⟩ := List.append_of_mem hy
          exact h [] x mid y back rfl hx
        rw [List.countP_cons_of_pos hx, hnone]
      · rw [List.countP_cons_of_neg hx]
        apply ih
        intro front y mid z back hxs
        rw [hxs] at h
        exact h (x :: front) y mid z back rfl

/-- **A source is asked no more than it has to be.** In every history of a document, whatever its
source answers, the probes that succeed are at most one more than the resets of the window; whether
the document is there is never asked for again once a question was answered or a fetch was
attempted; and if the staged file is touched by the calls alone, it is downloaded again only after
a cleaning up that was to remove it, so at most once if staged files are kept. -/
theorem questions_bounded (settings : Settings) (source : Source σ)
    (history : List (Call × World σ)) :
    let d := ofSource settings source
    let es := d.events history
    findings es ≤ 1 + es.countP (·.call.isReset) ∧
    (∀ (front : List Event) (e : Event) (back : List Event), es = front ++ e :: back →
      e.call = .isThere → (∃ e' ∈ front, e'.Settles) → e.asked = []) ∧
    (d.LeftAlone history →
      (∀ (front : List Event) (e : Event) (between : List Event) (e' : Event)
        (back : List Event), es = front ++ e :: (between ++ e' :: back) →
        e.stages = true → e'.stages = true →
        settings.retain = false ∧ ∃ c ∈ between, c.call = .cleanUp) ∧
      (settings.retain = true → es.countP Event.stages ≤ 1)) := by
  intro d es
  have hsound : d.Sound := sound_ofSource settings source
  refine ⟨?_, ?_, ?_⟩
  · exact (Nat.le_add_right _ _).trans (findings_events hsound history)
  · intro front e back hes hcall hsettles
    obtain ⟨earlier, call, w, later, _, rfl, rfl, _⟩ := events_eq_append_cons hes
    have hknown := presence_of_mem_events hsound hsettles
    obtain rfl : call = .isThere := hcall
    change Call.isThere.asks (d.after earlier) w = []
    rw [asks_isThere, if_neg hknown]
  · intro halone
    constructor
    · intro front e between e' back hes he he'
      exact cleanUp_between halone hes he he'
    · intro hretain
      apply countP_le_one
      intro front e between e' back hes he he'
      have hremoved := (cleanUp_between halone hes he he').1
      rw [show d.settings.retain = true from hretain] at hremoved
      cases hremoved

/-! ## Calls one after the other -/

/-- The history of calls that are made one after the other. -/
def consecutive (d : Document σ) (w : World σ) : List Call → List (Call × World σ)
  | [] => []
  | call :: rest =>
    (call, w) :: (call.perform d w).2.1.consecutive (call.perform d w).2.2 rest

theorem leftAlone_consecutive (d : Document σ) (w : World σ) (calls : List Call) :
    d.LeftAlone (d.consecutive w calls) := by
  induction calls generalizing d w with
  | nil => trivial
  | cons call rest ih =>
      refine ⟨?_, ih _ _⟩
      intro next hnext
      cases rest with
      | nil => cases hnext
      | cons call' rest =>
          cases hnext
          rfl

/-- A source that is there and has one word. -/
def oneWordSource : Source Unit :=
  ⟨"a", "txt", fun _ => (.ok (.present []), ()), fun _ => (.ok ⟨[], .ok "word".toUTF8⟩, ())⟩

/-- Settings under which staged files are kept or not. -/
def keeping (retain : Bool) : Settings := { Settings.within ⟨"d"⟩ ⟨"o"⟩ with retain := retain }

/-- Calls that ask for the same things again and again, first in a world without files. -/
def repeated (retain : Bool) : List (Call × World Unit) :=
  (ofSource (keeping retain) oneWordSource).consecutive ⟨⟨.empty, []⟩, ()⟩
    [.isThere, .fetch, .isThere, .fetch, .resetWindow, .cleanUp, .fetch]

theorem questions_bounded_repeated :
    let es (retain : Bool) := (ofSource (keeping retain) oneWordSource).events (repeated retain)
    (es false).map (·.asked.length) = [1, 1, 0, 0, 0, 0, 1] ∧
      findings (es false) ≤ 1 + 1 ∧
      ((es false)[2]?).map (·.asked) = some [] ∧
      (keeping false).retain = false ∧ (∃ c ∈ es false, c.call = .cleanUp) ∧
      (es true).countP Event.stages ≤ 1 := by
  intro es
  have hasked : (es false).map (·.asked.length) = [1, 1, 0, 0, 0, 0, 1] := by decide +kernel
  have hbounded (retain : Bool) :=
    questions_bounded (keeping retain) oneWordSource (repeated retain)
  have halone (retain : Bool) :
      (ofSource (keeping retain) oneWordSource).LeftAlone (repeated retain) :=
    leftAlone_consecutive _ _ _
  refine ⟨hasked, (hbounded false).1, ?_, rfl, ?_, ((hbounded true).2.2 (halone true)).2 rfl⟩
  · have hthird := (hbounded false).2.1 [_, _] _ [_, _, _, _] rfl rfl
      ⟨_, List.mem_cons_of_mem _ List.mem_cons_self, Or.inr rfl⟩
    exact congrArg some hthird
  · obtain ⟨_, c, hc, hcleanUp⟩ := ((hbounded false).2.2 (halone false)).1 [_] _ [_, _, _, _] _ []
      rfl (by decide +kernel) (by decide +kernel)
    exact ⟨c, List.mem_cons_of_mem _ (List.mem_cons_of_mem _ (List.mem_append_left [_] hc)),
      hcleanUp⟩

end Document

end Intake
