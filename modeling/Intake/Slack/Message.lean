import Intake.Json.Times
import Intake.Listing

/-!
# Messages

A message of a channel as the service reports it, and the pages in which messages are
reported. The time stamp of a message is also its name within the channel.
-/

namespace Intake.Slack

structure Message where
  stamp : String
  text : String
  replyCount : Nat
  /-- The stamp of the first message of the thread. -/
  thread : Option String
  deriving DecidableEq, Repr

namespace Message

def hasReplies (m : Message) : Bool := 0 < m.replyCount

open Json.Decode in
def shape : Shape where
  name := "SlackMessage"
  fields := [.required "ts" string, .defaulted "text" string, .defaulted "reply_count" nat32,
    .defaulted "thread_ts" (optional string)]

open Json.Decode in
def decode : Json.Decoder Message := fun v => do
  let entries ← entriesOf shape v
  let stamp ← field entries "ts" string
  let text ← fieldD entries "text" string ""
  let replyCount ← fieldD entries "reply_count" nat32 0
  let thread ← fieldD entries "thread_ts" (optional string) none
  .ok ⟨stamp, text, replyCount, thread⟩

def toJson (m : Message) : Json :=
  .object ([("ts", .string m.stamp), ("text", .string m.text),
      ("reply_count", Json.ofNat m.replyCount)] ++
    match m.thread with
    | some t => [("thread_ts", .string t)]
    | none => [])

end Message

structure Report where
  ok : Bool
  error : Option String
  messages : List Message
  hasMore : Bool
  cursor : Option String

namespace Report

open Json.Decode in
def cursorShape : Shape where
  name := "ResponseMetadata"
  fields := [.defaulted "next_cursor" string]

open Json.Decode in
def decodeCursor : Json.Decoder String := fun v => do
  fieldD (← entriesOf cursorShape v) "next_cursor" string ""

open Json.Decode in
def shape : Shape where
  name := "MessagePage"
  fields := [.required "ok" boolean, .defaulted "error" (optional string),
    .defaulted "messages" (list Message.decode), .defaulted "has_more" boolean,
    .defaulted "response_metadata" (optional decodeCursor)]

def outline : Json.Outline :=
  shape.outline [("messages", .each Message.shape.outline),
    ("response_metadata", cursorShape.outline)]

open Json.Decode in
def decode : Json.Decoder Report := fun v => do
  let entries ← entriesOf shape v
  let ok ← field entries "ok" boolean
  let error ← fieldD entries "error" (optional string) none
  let messages ← fieldD entries "messages" (list Message.decode) []
  let hasMore ← fieldD entries "has_more" boolean false
  let cursor ← fieldD entries "response_metadata" (optional decodeCursor) none
  .ok ⟨ok, error, messages, hasMore, cursor⟩

/-- The page that a report stands for, or the service's name for what went wrong. The next page
needs both a name and the word that there is more. -/
def page (r : Report) : Except Outage (Page Message) :=
  if r.ok then
    .ok ⟨r.messages, if r.hasMore then r.cursor.filter (!·.isEmpty) else none⟩
  else .error (.reported (r.error.getD "unknown_error"))

end Report

end Intake.Slack
