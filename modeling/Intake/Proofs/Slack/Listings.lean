import Intake.Proofs.Http.Listings
import Intake.Slack.Channel

/-!
# Listings of messages

The service reports a listing as a chain of pages, each of which names the next one, except for
the last. A client with the patience for all of them gathers their messages in the order of the
pages; so a channel downloads its history with the replies of all threads folded in.
-/

namespace Intake.Slack

open Http (Client Serves)

variable {σ : Type} {client : Client σ} {method channel : String}
  {params : List (String × String)} {cursor : Option String} {remote remote' : σ}

/-! ## Pages -/

/-- Whether the service answers the request for a page with a report, and with what is asked for.
The first page is asked for without a cursor. -/
structure Answers (client : Client σ) (method : String) (params : List (String × String))
    (cursor : Option String) (remote : σ) (report : Report) (remote' : σ) : Prop where
  ok : report.ok = true
  reply : ∃ reply, client.get ("/" ++ method)
      (params ++ [("limit", pageLimit)] ++ cursor.toList.map fun c => ("cursor", c)) remote =
        (.ok reply, remote') ∧
    reply.status.isSuccess = true ∧ reply.decode Report.outline Report.decode = .ok report

/-- The service ends its pages with a report that names no next page. -/
theorem Answers.last {report : Report}
    (h : Answers client method params cursor remote report remote') (hnext : report.next? = none) :
    Serves client (inquiry method params) (Means method) cursor remote [] (.ok report.messages)
      remote' := by
  obtain ⟨reply, hget, hsuccess, hdecode⟩ := h.reply
  exact .last hget (.last hsuccess hdecode h.ok (Report.next?_eq_none.mp hnext))

/-- The service gives the page of a report before those that it gives from the next page on. -/
theorem Answers.more {report : Report} {next : String} {middle : σ}
    {pages : List (List Message × String)} {ending : Except Outage (List Message)}
    (h : Answers client method params cursor remote report middle)
    (hnext : report.next? = some next)
    (hrest : Serves client (inquiry method params) (Means method) (some next) middle pages ending
      remote') :
    Serves client (inquiry method params) (Means method) cursor remote
      ((report.messages, next) :: pages) ending remote' := by
  obtain ⟨reply, hget, hsuccess, hdecode⟩ := h.reply
  obtain ⟨hmore, hcursor, hne⟩ := Report.next?_eq_some.mp hnext
  exact .more hget (.more hsuccess hdecode h.ok hmore hcursor hne) hrest

/-- Pages, as many as told, in which the service reports messages one after the other. -/
inductive Chain (client : Client σ) (method : String) (params : List (String × String)) :
    Option String → σ → Nat → List Message → σ → Prop where
  | last {cursor : Option String} {remote remote' : σ} {report : Report} :
      Answers client method params cursor remote report remote' → report.next? = none →
        Chain client method params cursor remote 1 report.messages remote'
  | more {cursor : Option String} {next : String} {remote middle remote' : σ} {report : Report}
      {pages : Nat} {ms : List Message} :
      Answers client method params cursor remote report middle → report.next? = some next →
        Chain client method params (some next) middle pages ms remote' →
          Chain client method params cursor remote (pages + 1) (report.messages ++ ms) remote'

/-- The pages of a chain are served, each with its messages. -/
theorem Chain.serves {pages : Nat} {ms : List Message}
    (h : Chain client method params cursor remote pages ms remote') :
    ∃ front last, front.length + 1 = pages ∧ front.flatMap Prod.fst ++ last = ms ∧
      Serves client (inquiry method params) (Means method) cursor remote front (.ok last)
        remote' := by
  induction h with
  | @last cursor remote remote' report hanswer hnext =>
      exact ⟨[], report.messages, rfl, rfl, hanswer.last hnext⟩
  | @more cursor next remote middle remote' report pages ms hanswer hnext _ ih =>
      obtain ⟨front, last, hlength, rfl, hserves⟩ := ih
      refine ⟨(report.messages, next) :: front, last, ?_, ?_, hanswer.more hnext hserves⟩
      · rw [List.length_cons, hlength]
      · rw [List.flatMap_cons, List.append_assoc]

/-- A listing gathers the messages of all pages of a chain. -/
theorem Chain.gather {pages : Nat} {ms : List Message}
    (h : Chain client method params cursor remote pages ms remote') {patience : Nat}
    (hpages : pages ≤ patience) :
    (pager client method channel params).gather patience cursor remote = (.ok ms, remote') := by
  obtain ⟨front, last, rfl, rfl, hserves⟩ := h.serves
  have hread : ∀ reply turn, Means method reply turn → readReport method reply = turn.page :=
    fun _ _ => readReport_of_means
  rw [pager_eq]
  exact hserves.gather hread hpages

/-! ## Threads -/

/-- A message with the thread that is listed for it, which is empty if it has no replies. -/
structure Topic where
  message : Message
  thread : List Message

/-- The text of a message, followed by the texts of the replies in its thread, each after a mark.
The thread also lists the message itself, which is no reply. -/
def Topic.text (t : Topic) : String :=
  t.message.text ++ String.join ((t.thread.filter (·.stamp ≠ t.message.stamp)).map
    fun r => " <reply> " ++ r.text)

theorem withReplies_eq (text : String) (replies : List Message) :
    withReplies text replies =
      text ++ String.join (replies.map fun r => " <reply> " ++ r.text) := by
  induction replies generalizing text with
  | nil => exact (String.append_empty).symm
  | cons r rest ih =>
      have hstep : withReplies text (r :: rest) =
          withReplies (text ++ replySeparator ++ r.text) rest := rfl
      rw [hstep, ih, List.map_cons, String.join_cons, replySeparator, String.append_assoc,
        String.append_assoc, String.append_assoc]

/-- Topics whose threads the service lists one after the other. -/
inductive Threads (c : Channel σ) : σ → List Topic → σ → Prop where
  | nil {remote : σ} : Threads c remote [] remote
  | plain {m : Message} {topics : List Topic} {remote remote' : σ} :
      m.hasReplies = false → Threads c remote topics remote' →
        Threads c remote (⟨m, []⟩ :: topics) remote'
  | threaded {m : Message} {thread : List Message} {topics : List Topic} {pages : Nat}
      {remote middle remote' : σ} :
      m.hasReplies = true → pages ≤ c.client.patience →
        Chain c.client "conversations.replies" [("channel", c.span.channel), ("ts", m.stamp)]
          none remote pages thread middle →
        Threads c middle topics remote' → Threads c remote (⟨m, thread⟩ :: topics) remote'

/-- Whether these are the topics of a channel: the service lists their messages as the history of
the channel, and then their threads. -/
def Holds (c : Channel σ) (remote : σ) (topics : List Topic) (remote' : σ) : Prop :=
  ∃ pages middle, pages ≤ c.client.patience ∧
    Chain c.client "conversations.history" c.span.params none remote pages
      (topics.map (·.message)) middle ∧
    Threads c middle topics remote'

variable {c : Channel σ} {topics : List Topic}

/-- The message of a topic with the replies folded in. -/
def Topic.folded (t : Topic) : Message := { t.message with text := t.text }

theorem Topic.fold_eq (m : Message) (thread : List Message) :
    m.fold thread = Topic.folded ⟨m, thread⟩ := by
  rw [Message.fold, withReplies_eq]
  rfl

theorem Topic.folded_plain (m : Message) : Topic.folded ⟨m, []⟩ = m := by
  have htext : Topic.text ⟨m, []⟩ = m.text := String.append_empty
  rw [folded, htext]

/-- The replies of all threads are folded into their messages. -/
theorem Threads.completeAll (h : Threads c remote topics remote') :
    c.completeAll (topics.map (·.message)) remote = (.ok (topics.map Topic.folded), remote') := by
  induction h with
  | nil => rfl
  | @plain m topics remote remote' hplain _ ih =>
      have hcomplete : c.complete m remote = (.ok m, remote) := by
        rw [Channel.complete, hplain]
        rfl
      rw [List.map_cons, List.map_cons, Channel.completeAll]
      simp only [hcomplete, ih, Topic.folded_plain]
  | @threaded m thread topics pages remote middle remote' hreplies hpages hchain _ ih =>
      have hlisted : replies c.client c.span.channel m.stamp remote = (.ok thread, middle) :=
        hchain.gather hpages
      have hcomplete : c.complete m remote = (.ok (Topic.folded ⟨m, thread⟩), middle) := by
        rw [Channel.complete, if_pos hreplies, hlisted, ← Topic.fold_eq]
      rw [List.map_cons, List.map_cons, Channel.completeAll]
      simp only [hcomplete, ih]

/-- The history of a channel has the messages of its topics, before their threads are listed. -/
theorem Holds.history (h : Holds c remote topics remote') :
    ∃ middle, history c.client c.span remote = (.ok (some (topics.map (·.message))), middle) ∧
      Threads c middle topics remote' := by
  obtain ⟨pages, middle, hpages, hchain, hthreads⟩ := h
  have hlisted : messages c.client "conversations.history" c.span.channel c.span.params remote =
      (.ok (topics.map (·.message)), middle) := hchain.gather hpages
  refine ⟨middle, ?_, hthreads⟩
  rw [Slack.history, hlisted]

/-- A channel is there with the stamps of its topics. -/
theorem Holds.probe (h : Holds c remote topics remote') :
    (c.probe remote).1 = .ok (.present (topics.map (·.message.stamp))) := by
  obtain ⟨middle, hhistory, -⟩ := Holds.history h
  rw [Channel.probe, hhistory]
  simp only [Channel.stamps, List.map_map]
  rfl

/-- A channel is downloaded as the dump of the texts of its topics. -/
theorem Holds.download (h : Holds c remote topics remote') :
    c.download remote = (.ok ⟨topics.map (·.message.stamp),
      .ok (Dump.write (topics.map Topic.text)).toUTF8⟩, remote') := by
  obtain ⟨middle, hhistory, hthreads⟩ := Holds.history h
  rw [Channel.download, hhistory]
  simp only [hthreads.completeAll]
  simp only [Channel.staged, Channel.stamps, List.map_map]
  rfl

end Intake.Slack
