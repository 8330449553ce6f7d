import Intake.Proofs.Document.Questions

/-!
# Probes and fetches agree

A source is settled if it gives the same answers whenever it is asked, with the same stamps in a
probe and in a download. Whatever is called first on a fresh document of such a source, the
document knows the same afterwards; and no call that follows changes what it knows, or what was
staged.
-/

namespace Intake

open Files

variable {σ : Type}

/-- A window is known, or one of the stamps is no time. -/
theorem windowOf_cases (stamps : List String) :
    (∃ window, windowOf stamps = .ok window) ∨ ∃ s ∈ stamps, Time.readStamp s = none ∧
      windowOf stamps = .error (.unreadable (.notAStamp (Text.trim s))) := by
  suffices h : (∃ ts, Time.Window.readStamps stamps = .ok ts) ∨ ∃ s ∈ stamps,
      Time.readStamp s = none ∧ Time.Window.readStamps stamps = .error (Text.trim s) by
    rcases h with ⟨ts, hts⟩ | ⟨s, hs, hnone, herror⟩
    · refine Or.inl ⟨.hull ts, ?_⟩
      rw [windowOf, Time.Window.ofStamps, hts]
      rfl
    · refine Or.inr ⟨s, hs, hnone, ?_⟩
      rw [windowOf, Time.Window.ofStamps, herror]
      rfl
  induction stamps with
  | nil => exact Or.inl ⟨[], rfl⟩
  | cons s rest ih =>
      rw [Time.Window.readStamps]
      cases hs : Time.readStamp s with
      | none => exact Or.inr ⟨s, List.mem_cons_self, hs, rfl⟩
      | some t =>
          rcases ih with ⟨ts, hts⟩ | ⟨s', hs', hnone, herror⟩
          · exact Or.inl ⟨t :: ts, by rw [hts]; rfl⟩
          · exact Or.inr ⟨s', List.mem_cons_of_mem s hs', hnone, by rw [herror]; rfl⟩

/-- Whether a source answers the same in every state of the remote system: that it is there, with
these stamps, and that this is its content, with the same stamps. -/
structure Source.Settled (s : Source σ) (stamps : List String) (bytes : ByteArray) : Prop where
  probe : ∀ remote, (s.probe remote).1 = .ok (.present stamps)
  download : ∀ remote, (s.download remote).1 = .ok ⟨stamps, .ok bytes⟩

namespace Document

/-- A document that is known to be there, with a window. -/
def knowing (d : Document σ) (window : Time.Window) : Document σ :=
  { d with presence := .present, window := some window }

/-! ## Calls on a fresh document -/

section

variable {d : Document σ} {stamps : List String} {bytes : ByteArray} {window : Time.Window}
  {f : Fault}

theorem learn_settled (hnone : d.window = none) (hwindow : windowOf stamps = .ok window) :
    d.learn (.ok (.present stamps)) = (.ok (), d.knowing window) := by
  simp only [learn, observed, hwindow, Except.map, hnone, Option.getD_none, knowing]

/-- What a probe finds out is the answer to the question for the presence. -/
theorem isThere_of_observed {remote : σ} {found : Probe} {presence : Presence}
    (hunknown : d.presence = .unknown) (hprobe : (d.source.probe remote).1 = .ok found)
    (hobserved : observed found = .ok (presence, window)) :
    (d.isThere remote).1 = .ok (presence == .present) := by
  rw [isThere, if_pos hunknown, probe_eq, hprobe]
  simp only [learn, hobserved]

theorem learn_unreadable (hwindow : windowOf stamps = .error f) :
    d.learn (.ok (.present stamps)) = (.error f, d) := by
  simp only [learn, observed, hwindow, Except.map]

theorem receive_unreadable (hnone : d.window = none) (hwindow : windowOf stamps = .error f)
    (fs : FileSystem) (content : Except Fault ByteArray) :
    d.receive fs (.ok ⟨stamps, content⟩) = (.error f, d.lost, fs) := by
  simp only [receive, windowFor, hnone, hwindow]

/-- Content is staged with the window that is known, or else with that of its stamps. -/
theorem receive_settled {fs staged : FileSystem}
    (hwindow : d.windowFor ⟨stamps, .ok bytes⟩ = .ok window)
    (hstage : d.stage fs ⟨stamps, .ok bytes⟩ = (.ok (), staged)) :
    d.receive fs (.ok ⟨stamps, .ok bytes⟩) = (.ok (), d.knowing window, staged) := by
  simp only [receive, hwindow, hstage]
  rfl

end

/-- What the first call finds out where the source is settled: all three kinds of calls make the
same known. -/
structure Agreed (d : Document σ) (fs : FileSystem) (window : Time.Window) : Prop where
  isThere : ∀ remote, ∃ remote', d.isThere remote = (.ok true, d.knowing window, remote')
  findWindow : ∀ remote, ∃ remote', d.findWindow remote = (.ok window, d.knowing window, remote')
  fetch : ∀ remote, ∃ w', d.fetch ⟨fs, remote⟩ = (.ok (), d.knowing window, w')

/-- What the first call finds out where a stamp cannot be read: all three kinds of calls have the
same fault, and no window is known afterwards. -/
structure Refused (d : Document σ) (fs : FileSystem) (f : Fault) : Prop where
  isThere : ∀ remote, ∃ remote', d.isThere remote = (.error f, d, remote')
  findWindow : ∀ remote, ∃ remote', d.findWindow remote = (.error f, d, remote')
  fetch : ∀ remote, ∃ remote', d.fetch ⟨fs, remote⟩ = (.error f, d.lost, ⟨fs, remote'⟩)

section

variable {d : Document σ} {fs : FileSystem} {stamps : List String} {bytes : ByteArray}
  (hsettled : d.source.Settled stamps bytes) (hunknown : d.presence = .unknown)
  (hnone : d.window = none) (hfree : d.isStaged fs = false)

include hsettled hunknown hnone hfree

theorem agreed_of_settled {window : Time.Window} (hwindow : windowOf stamps = .ok window)
    (hworks : (d.stage fs ⟨stamps, .ok bytes⟩).1 = .ok ()) : Agreed d fs window where
  isThere remote := by
    refine ⟨(d.source.probe remote).2, ?_⟩
    rw [Document.isThere, if_pos hunknown, probe_eq, hsettled.probe, learn_settled hnone hwindow]
    rfl
  findWindow remote := by
    refine ⟨(d.source.probe remote).2, ?_⟩
    rw [Document.findWindow, hnone, probe_eq, hsettled.probe, learn_settled hnone hwindow]
    rfl
  fetch remote := by
    have hknown : d.windowFor ⟨stamps, .ok bytes⟩ = .ok window :=
      windowFor_eq_ok.mpr (Or.inr ⟨hnone, hwindow⟩)
    rw [fetch_of_free (w := ⟨fs, remote⟩) hfree, hsettled.download,
      receive_settled hknown (Prod.ext hworks rfl)]
    exact ⟨_, rfl⟩

theorem refused_of_settled {f : Fault} (hwindow : windowOf stamps = .error f) :
    Refused d fs f where
  isThere remote := by
    refine ⟨(d.source.probe remote).2, ?_⟩
    rw [Document.isThere, if_pos hunknown, probe_eq, hsettled.probe, learn_unreadable hwindow]
  findWindow remote := by
    refine ⟨(d.source.probe remote).2, ?_⟩
    rw [Document.findWindow, hnone, probe_eq, hsettled.probe, learn_unreadable hwindow]
  fetch remote := by
    rw [fetch_of_free (w := ⟨fs, remote⟩) hfree, hsettled.download,
      receive_unreadable hnone hwindow]
    exact ⟨_, rfl⟩

end

/-! ## Calls in any order -/

/-- Whether a call finds something out. -/
def Call.inquires : Call → Bool
  | .isThere | .findWindow | .fetch => true
  | .resetWindow | .cleanUp => false

def Call.isFetch : Call → Bool
  | .fetch => true
  | .isThere | .findWindow | .resetWindow | .cleanUp => false

/-- Performs calls one after the other: what came of each of them, and what there is at the end. -/
def performAll (d : Document σ) (w : World σ) :
    List Call → List (Except Fault Unit) × Document σ × World σ
  | [] => ([], d, w)
  | call :: rest =>
    let (r, d, w) := call.perform d w
    let (rs, d, w) := performAll d w rest
    (r :: rs, d, w)

theorem performAll_cons (d : Document σ) (w : World σ) (call : Call) (rest : List Call) :
    d.performAll w (call :: rest) =
      ((call.perform d w).1 :: ((call.perform d w).2.1.performAll (call.perform d w).2.2 rest).1,
        ((call.perform d w).2.1.performAll (call.perform d w).2.2 rest).2) := rfl

/-- How far a document has come since it was fresh: whether something was found out, which is then
all that there is to know, and whether the content was staged. -/
inductive Progress (d : Document σ) (fs : FileSystem) (window : Time.Window)
    (bytes : ByteArray) : Bool → Bool → Document σ → FileSystem → Prop where
  | fresh : Progress d fs window bytes false false d fs
  | known : Progress d fs window bytes true false (d.knowing window) fs
  | staged {files : FileSystem} : d.isStaged files = true → files.read d.stagingPath = .ok bytes →
      Progress d fs window bytes true true (d.knowing window) files

theorem Progress.eq_knowing {d d' : Document σ} {fs files : FileSystem} {window : Time.Window}
    {bytes : ByteArray} {staged : Bool}
    (h : Progress d fs window bytes true staged d' files) : d' = d.knowing window := by
  cases h with
  | known => rfl
  | staged _ _ => rfl

theorem Progress.read {d d' : Document σ} {fs files : FileSystem} {window : Time.Window}
    {bytes : ByteArray} {known : Bool}
    (h : Progress d fs window bytes known true d' files) :
    files.read d.stagingPath = .ok bytes := by
  cases h with
  | staged _ hread => exact hread

theorem Akin.stage {d d' : Document σ} (h : Akin d d') (fs : FileSystem) (download : Download) :
    d'.stage fs download = d.stage fs download := by
  rw [Document.stage, Document.stage, h.stagingPath, h.settings]

section

variable {d : Document σ} {fs : FileSystem} {stamps : List String} {bytes : ByteArray}
  {window : Time.Window} {known staged : Bool} {d' : Document σ} {w : World σ}
  (hsettled : d.source.Settled stamps bytes) (hunknown : d.presence = .unknown)
  (hnone : d.window = none) (hfree : d.isStaged fs = false)
  (hwindow : windowOf stamps = .ok window)
  (hworks : (d.stage fs ⟨stamps, .ok bytes⟩).1 = .ok ())

include hsettled hfree hworks in
/-- A document that has the window of its source, or gets it, is fetched as its source answers. -/
theorem progress_fetch (hfiles : w.files = fs) (hakin : Akin d d')
    (hknown : d'.windowFor ⟨stamps, .ok bytes⟩ = .ok window) :
    (d'.fetch w).1 = .ok () ∧
      Progress d fs window bytes true true (d'.fetch w).2.1 (d'.fetch w).2.2.files := by
  have hfree' : d'.isStaged w.files = false := by rw [hfiles, hakin.isStaged, hfree]
  have hanswer : (d'.source.download w.remote).1 = .ok ⟨stamps, .ok bytes⟩ := by
    rw [hakin.source, hsettled.download]
  have hstage : (d'.stage w.files ⟨stamps, .ok bytes⟩).1 = .ok () := by
    rw [hakin.stage, hfiles, hworks]
  have hdocument : d'.knowing window = d.knowing window := by
    rw [knowing, knowing, hakin.source, hakin.settings]
  have hfetch := fetch_of_free hfree'
  rw [hanswer, receive_settled hknown (Prod.ext hstage rfl), hdocument] at hfetch
  have hfetched := fetch_ok hfetch
  obtain ⟨download, content, hdownload, hcontent, hread, -⟩ := hfetched.downloaded hfree'
  have hsame : download = ⟨stamps, .ok bytes⟩ := by
    rw [hdownload] at hanswer
    exact Except.ok.inj hanswer
  subst hsame
  cases hcontent
  have hstaged := hfetched.staged
  rw [hakin.stagingPath] at hstaged hread
  rw [hfetch]
  exact ⟨rfl, .staged hstaged hread⟩

include hsettled hnone hwindow in
/-- A question is answered by a probe as long as the document is fresh, and then by what is known. -/
theorem progress_question {call : Call}
    (hprogress : Progress d fs window bytes known staged d' w.files)
    (hfresh : call.perform d w = d.probed w)
    (hknown : call.perform (d.knowing window) w = (.ok (), d.knowing window, w)) :
    (call.perform d' w).1 = .ok () ∧
      Progress d fs window bytes true staged (call.perform d' w).2.1
        (call.perform d' w).2.2.files := by
  generalize hfiles : w.files = files at hprogress
  cases hprogress with
  | fresh =>
      rw [hfresh, probed, hsettled.probe, learn_settled hnone hwindow, hfiles]
      exact ⟨rfl, .known⟩
  | known =>
      rw [hknown, hfiles]
      exact ⟨rfl, .known⟩
  | staged hstaged hread =>
      rw [hknown, hfiles]
      exact ⟨rfl, .staged hstaged hread⟩

include hsettled hunknown hnone hfree hwindow hworks

/-- One call: it succeeds, after it all is known, and after a fetch the content is staged. -/
theorem progress_perform (hprogress : Progress d fs window bytes known staged d' w.files)
    {call : Call} (hcall : call.inquires = true) :
    (call.perform d' w).1 = .ok () ∧
      Progress d fs window bytes true (staged || call.isFetch) (call.perform d' w).2.1
        (call.perform d' w).2.2.files := by
  have hpresent : (d.knowing window).presence ≠ .unknown := by simp [knowing]
  cases call with
  | resetWindow => cases hcall
  | cleanUp => cases hcall
  | isThere =>
      rw [Call.isFetch, Bool.or_false]
      exact progress_question hsettled hnone hwindow hprogress
        (perform_isThere_of_unknown hunknown) (perform_isThere_of_known hpresent)
  | findWindow =>
      rw [Call.isFetch, Bool.or_false]
      exact progress_question hsettled hnone hwindow hprogress
        (perform_findWindow_of_none hnone) (perform_findWindow_of_some rfl)
  | fetch =>
      rw [Call.isFetch, Bool.or_true, Call.perform]
      generalize hfiles : w.files = files at hprogress
      cases hprogress with
      | fresh =>
          exact progress_fetch hsettled hfree hworks hfiles (.refl d)
            (windowFor_eq_ok.mpr (Or.inr ⟨hnone, hwindow⟩))
      | known =>
          exact progress_fetch hsettled hfree hworks hfiles ⟨rfl, rfl⟩
            (windowFor_eq_ok.mpr (Or.inl rfl))
      | staged hstaged hread =>
          subst hfiles
          rw [fetch_of_staged (d := d.knowing window) hstaged]
          exact ⟨rfl, .staged hstaged hread⟩

/-- Any calls: all of them succeed; after one of them all is known, and after a fetch among them
the content is staged. -/
theorem progress_performAll (calls : List Call) (hcalls : calls.all Call.inquires = true)
    (hprogress : Progress d fs window bytes known staged d' w.files) :
    (d'.performAll w calls).1 = List.replicate calls.length (.ok ()) ∧
      Progress d fs window bytes (known || !calls.isEmpty) (staged || calls.any Call.isFetch)
        (d'.performAll w calls).2.1 (d'.performAll w calls).2.2.files := by
  induction calls generalizing known staged d' w with
  | nil =>
      rw [List.isEmpty_nil, List.any_nil, Bool.not_true, Bool.or_false, Bool.or_false]
      exact ⟨rfl, hprogress⟩
  | cons call rest ih =>
      rw [List.all_cons, Bool.and_eq_true] at hcalls
      obtain ⟨hresult, hnext⟩ := progress_perform hsettled hunknown hnone hfree hwindow hworks
        hprogress hcalls.1
      obtain ⟨hresults, hlast⟩ := ih hcalls.2 hnext
      rw [Bool.true_or, Bool.or_assoc] at hlast
      rw [performAll_cons]
      refine ⟨?_, ?_⟩
      · rw [hresult, hresults, List.length_cons, List.replicate_succ]
      · rw [List.isEmpty_cons, Bool.not_false, Bool.or_true, List.any_cons]
        exact hlast

end

end Document

end Intake
