import Intake.Http.Body
import Intake.Slack.Message

/-!
# Histories of channels

The messages of a channel within a window of time, and the replies to one of them. Both
are listings in pages. A channel that the service does not know has no history.
-/

namespace Intake.Slack

open Http (Client)

def pageLimit : String := "200"

def channelNotFound : String := "channel_not_found"

variable {σ : Type}

def readReport (method : String) (reply : Http.Reply) : Except Outage (Page Message) := do
  if !reply.status.isSuccess then .error (.refused method reply.status)
  let report ← (reply.decode Report.outline Report.decode).mapError Outage.exchange
  report.page

def pager (client : Client σ) (method channel : String) (params : List (String × String)) :
    Pager σ Message := fun cursor remote =>
  let query := params ++ [("limit", pageLimit)] ++ cursor.toList.map fun c => ("cursor", c)
  match client.get ("/" ++ method) query remote with
  | (.error failure, remote) => (.error (.unavailable channel (.exchange failure)), remote)
  | (.ok reply, remote) =>
    ((readReport method reply).mapError (Fault.unavailable channel), remote)

def messages (client : Client σ) (method channel : String) (params : List (String × String))
    (remote : σ) : Except Fault (List Message) × σ :=
  (pager client method channel params).gather client.patience none remote

/-- A channel in a window of time, whose bounds are written as epoch seconds. -/
structure Span where
  channel : String
  oldest : Option String
  latest : Option String
  deriving DecidableEq, Repr

def Span.params (s : Span) : List (String × String) :=
  ("channel", s.channel) :: (s.oldest.toList.map fun t => ("oldest", t)) ++
    s.latest.toList.map fun t => ("latest", t)

/-- The messages of a channel, or none if there is no such channel. -/
def history (client : Client σ) (s : Span) (remote : σ) :
    Except Fault (Option (List Message)) × σ :=
  match messages client "conversations.history" s.channel s.params remote with
  | (.ok ms, remote) => (.ok (some ms), remote)
  | (.error (.unavailable locator (.reported code)), remote) =>
    if code = channelNotFound then (.ok none, remote)
    else (.error (.unavailable locator (.reported code)), remote)
  | (.error f, remote) => (.error f, remote)

/-- The thread that a message began, with this message. -/
def replies (client : Client σ) (channel stamp : String) (remote : σ) :
    Except Fault (List Message) × σ :=
  messages client "conversations.replies" channel [("channel", channel), ("ts", stamp)] remote

end Intake.Slack
