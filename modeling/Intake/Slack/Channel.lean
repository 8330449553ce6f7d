import Intake.Document.Source
import Intake.Dump.Writer
import Intake.Slack.History
import Intake.Text.Described

/-!
# Channels as sources

A channel is staged as a message dump. The replies to a message are folded into it: they
follow its text, each after a separator.
-/

namespace Intake.Slack

open Http (Client)

structure Channel (σ : Type) where
  span : Span
  client : Client σ
  verbose : Bool

def replySeparator : String := " <reply> "

def withReplies (text : String) (replies : List Message) : String :=
  replies.foldl (fun text r => text ++ replySeparator ++ r.text) text

/-- A message with the replies of its thread, of which the message itself is none. -/
def Message.fold (m : Message) (thread : List Message) : Message :=
  { m with text := withReplies m.text (thread.filter fun r => r.stamp ≠ m.stamp) }

namespace Channel

variable {σ : Type}

def complete (c : Channel σ) (m : Message) (remote : σ) : Except Fault Message × σ :=
  if m.hasReplies then
    match replies c.client c.span.channel m.stamp remote with
    | (.ok thread, remote) => (.ok (m.fold thread), remote)
    | (.error f, remote) => (.error f, remote)
  else (.ok m, remote)

def completeAll (c : Channel σ) : List Message → σ → Except Fault (List Message) × σ
  | [], remote => (.ok [], remote)
  | m :: rest, remote =>
    match c.complete m remote with
    | (.error f, remote) => (.error f, remote)
    | (.ok m, remote) =>
      match c.completeAll rest remote with
      | (.ok ms, remote) => (.ok (m :: ms), remote)
      | (.error f, remote) => (.error f, remote)

def stamps (ms : List Message) : List String := ms.map (·.stamp)

def probe (c : Channel σ) (remote : σ) : Except Fault Probe × σ :=
  match history c.client c.span remote with
  | (.error f, remote) => (.error f, remote)
  | (.ok none, remote) => (.ok .absent, remote)
  | (.ok (some ms), remote) => (.ok (.present (stamps ms)), remote)

/-- The dump of some messages, with their stamps. -/
def staged (ms : List Message) : Download :=
  ⟨stamps ms, .ok (Dump.write (ms.map (·.text))).toUTF8⟩

def download (c : Channel σ) (remote : σ) : Except Fault Download × σ :=
  match history c.client c.span remote with
  | (.error f, remote) => (.error f, remote)
  | (.ok none, remote) =>
    (.error (.unavailable c.span.channel (.reported channelNotFound)), remote)
  | (.ok (some ms), remote) =>
    match c.completeAll ms remote with
    | (.error f, remote) => (.error f, remote)
    | (.ok ms, remote) => (.ok (staged ms), remote)

def source (c : Channel σ) : Source σ := ⟨c.span.channel, "xml", c.probe, c.download⟩

/-! ## Descriptions -/

def describeClient (c : Client σ) : String :=
  Text.describeRecord "SlackClient"
    [("base_url", Text.quote c.baseUrl), ("token", Text.quote "<redacted>")]

def describe (c : Channel σ) : String :=
  Text.describeRecord "SlackChannel"
    [("channel", Text.quote c.span.channel), ("client", describeClient c.client),
      ("oldest", Text.describeOption (c.span.oldest.map Text.quote)),
      ("latest", Text.describeOption (c.span.latest.map Text.quote)),
      ("verbose", Text.describeBool c.verbose)]

end Channel

end Intake.Slack
