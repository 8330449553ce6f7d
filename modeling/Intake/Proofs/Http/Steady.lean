import Intake.Drive.Item
import Intake.Proofs.Document.Agreement
import Intake.Proofs.Drive.Pages
import Intake.Proofs.Slack.Delivery

/-!
# Services that stay as they are

A network is steady if its answer to a request depends on nothing but the request. A channel or a
file of a steady service is a settled source: what is found by a probe and what comes with a
download was told by other requests, but it is the same.
-/

namespace Intake

open Files Http

variable {σ : Type}

/-- Whether every request has one answer, in every state of the remote system. -/
def Http.Network.Steady (network : Network σ) : Prop :=
  ∀ request s s', (network request s).1 = (network request s').1

theorem Http.Network.Steady.get {client : Client σ} (h : client.network.Steady) (path : String)
    (query : List (String × String)) (s s' : σ) :
    (client.get path query s).1 = (client.get path query s').1 := by
  unfold Client.get
  cases client.request? path query with
  | none => rfl
  | some request =>
      have hanswer := h request s s'
      cases hs : client.network request s with
      | mk reply t =>
          cases hs' : client.network request s' with
          | mk reply' t' =>
              rw [hs, hs'] at hanswer
              obtain rfl : reply = reply' := hanswer
              simp only [hs, hs']
              cases reply <;> rfl

/-! ## Channels -/

namespace Slack

section

variable {client : Client σ} {method : String} {params : List (String × String)}
  {cursor : Option String} {remote remote' : σ} (hsteady : client.network.Steady)

include hsteady

theorem Answers.anywhere {report : Report}
    (h : Answers client method params cursor remote report remote') (s : σ) :
    ∃ s', Answers client method params cursor s report s' := by
  obtain ⟨reply, hget, hsuccess, hdecode⟩ := h.reply
  refine ⟨_, h.ok, reply, Prod.ext ?_ rfl, hsuccess, hdecode⟩
  rw [hsteady.get _ _ s remote, hget]

theorem Chain.anywhere {pages : Nat} {ms : List Message}
    (h : Chain client method params cursor remote pages ms remote') (s : σ) :
    ∃ s', Chain client method params cursor s pages ms s' := by
  induction h generalizing s with
  | last hanswer hnext =>
      obtain ⟨s', hanswer⟩ := hanswer.anywhere hsteady s
      exact ⟨s', .last hanswer hnext⟩
  | more hanswer hnext _ ih =>
      obtain ⟨middle, hanswer⟩ := hanswer.anywhere hsteady s
      obtain ⟨s', hrest⟩ := ih middle
      exact ⟨s', .more hanswer hnext hrest⟩

end

section

variable {c : Channel σ} {topics : List Topic} {remote remote' : σ}
  (hsteady : c.client.network.Steady)

include hsteady

theorem Threads.anywhere (h : Threads c remote topics remote') (s : σ) :
    ∃ s', Threads c s topics s' := by
  induction h generalizing s with
  | nil => exact ⟨s, .nil⟩
  | plain hplain _ ih =>
      obtain ⟨s', hrest⟩ := ih s
      exact ⟨s', .plain hplain hrest⟩
  | threaded hreplies hpages hchain _ ih =>
      obtain ⟨middle, hchain⟩ := hchain.anywhere hsteady s
      obtain ⟨s', hrest⟩ := ih middle
      exact ⟨s', .threaded hreplies hpages hchain hrest⟩

/-- A channel has the same topics in every state. -/
theorem Holds.anywhere (h : Holds c remote topics remote') (s : σ) : ∃ s', Holds c s topics s' := by
  obtain ⟨pages, middle, hpages, hchain, hthreads⟩ := h
  obtain ⟨middle, hchain⟩ := hchain.anywhere hsteady s
  obtain ⟨s', hthreads⟩ := hthreads.anywhere hsteady middle
  exact ⟨s', pages, middle, hpages, hchain, hthreads⟩

theorem Holds.settled (h : Holds c remote topics remote') :
    c.source.Settled (topics.map (·.message.stamp))
      (Dump.write (topics.map Topic.text)).toUTF8 where
  probe s := by
    obtain ⟨s', hs⟩ := h.anywhere hsteady s
    exact Holds.probe hs
  download s := by
    obtain ⟨s', hs⟩ := h.anywhere hsteady s
    exact congrArg Prod.fst (Holds.download hs)

end

end Slack

/-! ## Files -/

namespace Drive

theorem ask_anywhere {client : Client σ} (hsteady : client.network.Steady) {α : Type}
    (locator path : String) (query : List (String × String)) (read : Reply → Except Outage α)
    (s s' : σ) :
    (ask client locator path query read s).1 = (ask client locator path query read s').1 := by
  have hanswer := hsteady.get path query s s'
  unfold ask
  cases hs : client.get path query s with
  | mk reply t =>
      cases hs' : client.get path query s' with
      | mk reply' t' =>
          rw [hs, hs'] at hanswer
          obtain rfl : reply = reply' := hanswer
          cases reply <;> rfl

/-- A file that is not in the trash, and of which the service tells what it told before, is there
with its stamps and its content. -/
theorem settled_item {i : Item σ} {bytes : ByteArray} {remote remote' : σ}
    (hsteady : i.client.network.Steady)
    (hfile : (file? i.client i.file.id remote).1 = .ok (some i.file))
    (htrashed : i.file.trashed = false)
    (hcontent : (content i.client i.file remote').1 = .ok bytes) :
    i.source.Settled i.file.stamps bytes where
  probe s := by
    have hs : (file? i.client i.file.id s).1 = .ok (some i.file) := by
      rw [← hfile]
      exact ask_anywhere hsteady _ _ _ _ s remote
    show (i.probe s).1 = _
    rw [Item.probe]
    cases hreply : file? i.client i.file.id s with
    | mk r s' =>
        rw [hreply] at hs
        obtain rfl : r = .ok (some i.file) := hs
        show Except.ok (Item.found (some i.file)) = _
        rw [Item.found, htrashed]
        rfl
  download s := by
    have hs : (content i.client i.file s).1 = .ok bytes := by
      rw [← hcontent, content, content]
      split
      · exact ask_anywhere hsteady _ _ _ _ s remote'
      · exact ask_anywhere hsteady _ _ _ _ s remote'
    show (i.download s).1 = _
    rw [Item.download]
    cases hreply : content i.client i.file s with
    | mk r s' =>
        rw [hreply] at hs
        obtain rfl : r = .ok bytes := hs
        rfl

end Drive

/-! ## Both -/

/-- Sources of services that stay as they are: a channel that is listed in pages with all its
threads, and a file that is not in the trash, that is told of as it was listed and that can be
downloaded. Each has its stamps and its content. -/
inductive Standing : Source σ → List String → ByteArray → Prop where
  | channel {c : Slack.Channel σ} {topics : List Slack.Topic} {remote remote' : σ} :
      c.client.network.Steady → Slack.Holds c remote topics remote' →
        Standing c.source (topics.map (·.message.stamp))
          (Dump.write (topics.map Slack.Topic.text)).toUTF8
  | file {i : Drive.Item σ} {bytes : ByteArray} {remote remote' : σ} :
      i.client.network.Steady → (Drive.file? i.client i.file.id remote).1 = .ok (some i.file) →
        i.file.trashed = false → (Drive.content i.client i.file remote').1 = .ok bytes →
          Standing i.source i.file.stamps bytes

theorem Standing.settled {source : Source σ} {stamps : List String} {bytes : ByteArray}
    (h : Standing source stamps bytes) : source.Settled stamps bytes := by
  cases h with
  | channel hsteady hholds => exact Slack.Holds.settled hsteady hholds
  | file hsteady hfile htrashed hcontent =>
      exact Drive.settled_item hsteady hfile htrashed hcontent

open Document in
/-- **Probes and fetches agree.** Let the service of a channel or a file stay as it is, let nothing
be staged, and let the file system be able to stage the content. If all stamps can be read, a fresh
document is known to be there with the same window whether it is asked for its presence, asked for
its window or fetched; and whatever of this is called in whatever order, all calls succeed, this is
known at the end, and after a fetch the content is what is staged. If a stamp cannot be read, all
three fail for it. -/
theorem probe_fetch_agree {source : Source σ} {stamps : List String} {bytes : ByteArray}
    (hstanding : Standing source stamps bytes) (settings : Settings) {fs : FileSystem}
    (hfree : (ofSource settings source).isStaged fs = false)
    (hworks : ((ofSource settings source).stage fs ⟨stamps, .ok bytes⟩).1 = .ok ()) :
    (∃ window, windowOf stamps = .ok window ∧ Agreed (ofSource settings source) fs window ∧
      ∀ calls, calls ≠ [] → calls.all Call.inquires = true → ∀ remote,
        ((ofSource settings source).performAll ⟨fs, remote⟩ calls).1 =
            List.replicate calls.length (.ok ()) ∧
          ((ofSource settings source).performAll ⟨fs, remote⟩ calls).2.1 =
            (ofSource settings source).knowing window ∧
          (calls.any Call.isFetch = true →
            ((ofSource settings source).performAll ⟨fs, remote⟩ calls).2.2.files.read
              (ofSource settings source).stagingPath = .ok bytes)) ∨
    ∃ s ∈ stamps, Time.readStamp s = none ∧
      Refused (ofSource settings source) fs (.unreadable (.notAStamp (Text.trim s))) := by
  have hsettled : (ofSource settings source).source.Settled stamps bytes := hstanding.settled
  rcases windowOf_cases stamps with ⟨window, hwindow⟩ | ⟨s, hs, hnone, herror⟩
  · refine Or.inl ⟨window, hwindow, agreed_of_settled hsettled rfl rfl hfree hwindow hworks, ?_⟩
    intro calls hcalls hinquire remote
    obtain ⟨hresults, hprogress⟩ := progress_performAll hsettled rfl rfl hfree hwindow hworks calls
      hinquire (w := ⟨fs, remote⟩) .fresh
    rw [Bool.false_or, Bool.false_or, List.isEmpty_eq_false_iff.mpr hcalls, Bool.not_false]
      at hprogress
    refine ⟨hresults, hprogress.eq_knowing, ?_⟩
    intro hfetch
    rw [hfetch] at hprogress
    exact hprogress.read
  · exact Or.inr ⟨s, hs, hnone, refused_of_settled hsettled rfl rfl hfree herror⟩

/-! ## A channel and a file -/

/-- A file that was made some time. -/
def note : Drive.File := ⟨"n", "note.txt", "text/plain", some "yesterday", none, false⟩

/-- The file at a service that tells of it whatever it is asked for. -/
def noteItem : Drive.Item Unit :=
  ⟨note, .ofUrl (fun _ s => (some (replyOf note.toJson), s)) 1 "http://s" "t"⟩

/-- Whatever can be asked for, the service tells of the file. -/
theorem get_note {path : String} {query : List (String × String)}
    (h : (noteItem.client.request? path query).isSome = true) :
    noteItem.client.get path query () = (.ok (replyOf note.toJson), ()) :=
  Client.get_of_request h fun _ => rfl

theorem standing_note : Standing noteItem.source ["yesterday"] note.toJson.pretty.toUTF8 := by
  have hfile : (Drive.file? noteItem.client note.id ()).1 = .ok (some note) := by
    rw [Drive.file?, Drive.ask, get_note (by decide +kernel)]
    simp only [Drive.readFile?_replyOf]
    rfl
  have hcontent : (Drive.content noteItem.client note ()).1 = .ok note.toJson.pretty.toUTF8 := by
    have hplain : note.exportFormat? = none := by decide
    rw [Drive.content, hplain, Drive.ask, get_note (by decide +kernel)]
    rfl
  exact .file (i := noteItem) (fun _ _ _ => rfl) hfile rfl hcontent

open Document in
theorem probe_fetch_agree_quiz_note :
    (((Slack.document Slack.apart Slack.quiz).performAll Slack.blank
        [.findWindow, .fetch, .isThere, .fetch]).1 = List.replicate 4 (.ok ()) ∧
      ((Slack.document Slack.apart Slack.quiz).performAll Slack.blank [.fetch, .findWindow]).2.1 =
        ((Slack.document Slack.apart Slack.quiz).performAll Slack.blank [.isThere]).2.1 ∧
      ((Slack.document Slack.apart Slack.quiz).performAll Slack.blank
        [.isThere, .fetch]).2.2.files.read ⟨"d/C1.xml"⟩ =
          ((Slack.document Slack.apart Slack.quiz).performAll Slack.blank
            [.fetch, .findWindow]).2.2.files.read ⟨"d/C1.xml"⟩) ∧
    ((ofSource Slack.apart noteItem.source).isThere ()).1 =
        .error (.unreadable (.notAStamp "yesterday")) ∧
      ((ofSource Slack.apart noteItem.source).fetch Slack.blank).1 =
        .error (.unreadable (.notAStamp "yesterday")) := by
  refine ⟨?_, ?_⟩
  · have hfree : (Slack.document Slack.apart Slack.quiz).isStaged Slack.blank.files = false := by
      decide +kernel
    rcases probe_fetch_agree (.channel (fun _ _ _ => rfl) Slack.holds_quiz) Slack.apart hfree
        (eq_ok_of_toOption (by decide +kernel)) with
      ⟨window, -, -, hcalls⟩ | ⟨s, hs, hnone, -⟩
    · have hfirst := hcalls [.findWindow, .fetch, .isThere, .fetch] (by simp) rfl ()
      have hsecond := hcalls [.fetch, .findWindow] (by simp) rfl ()
      have hthird := hcalls [.isThere] (by simp) rfl ()
      have hfourth := hcalls [.isThere, .fetch] (by simp) rfl ()
      refine ⟨hfirst.1, hsecond.2.1.trans hthird.2.1.symm, ?_⟩
      exact (hfourth.2.2 rfl).trans (hsecond.2.2 rfl).symm
    · have hreadable : ∀ s ∈ ["1.5", "3"], (Time.readStamp s).isSome = true := by decide +kernel
      have hsome := hreadable s hs
      rw [hnone] at hsome
      cases hsome
  · have hfree : (ofSource Slack.apart noteItem.source).isStaged Slack.blank.files = false := by
      decide +kernel
    rcases probe_fetch_agree standing_note Slack.apart hfree
        (eq_ok_of_toOption (by decide +kernel)) with
      ⟨window, hwindow, -⟩ | ⟨s, hs, -, hrefused⟩
    · have hfails : (windowOf ["yesterday"]).toOption = none := by decide +kernel
      rw [hwindow] at hfails
      cases hfails
    · obtain rfl : s = "yesterday" := List.mem_singleton.mp hs
      obtain ⟨_, hasked⟩ := hrefused.isThere ()
      obtain ⟨_, hfetched⟩ := hrefused.fetch ()
      exact ⟨congrArg Prod.fst hasked, congrArg Prod.fst hfetched⟩

end Intake
