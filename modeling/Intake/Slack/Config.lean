import Intake.Fault
import Intake.Text.Described
import Intake.Text.Split

/-!
# What to read from a workspace

The channels, the token and the window of time. A configuration is checked when it is
made: it has a channel and a token, and its window is not reversed.
-/

namespace Intake.Slack

def serviceUrl : String := "https://slack.com/api"

structure Config where
  channels : List String
  token : String
  oldest : Option Time.Instant
  latest : Option Time.Instant
  verbose : Bool
  url : String
  deriving DecidableEq

namespace Config

/-- The names without outer blanks, as far as anything is left of them. -/
def tidy (names : List String) : List String :=
  (names.map Text.trim).filter (!·.isEmpty)

def readChannels (s : String) : List String :=
  tidy ((Text.splitAt ',' s.toList).map String.ofList)

def readBound (field : String) : Option String → Except Fault (Option Time.Instant)
  | none => .ok none
  | some value => (validBound field value).map some

/-- Refuses a window that ends before it begins. -/
def checkWindow : Option Time.Instant → Option Time.Instant → Except Fault Unit
  | some oldest, some latest =>
    if oldest ≤ latest then .ok () else .error (.misconfigured (.reversedWindow oldest latest))
  | _, _ => .ok ()

def ofText (channels : List String) (token : String) (oldest latest : Option String) :
    Except Fault Config := do
  let channels := tidy channels
  if channels.isEmpty then .error (.misconfigured .noChannels)
  if Text.isBlankText token then .error (.misconfigured .blankSlackToken)
  let oldest ← readBound "oldest" oldest
  let latest ← readBound "latest" latest
  checkWindow oldest latest
  .ok ⟨channels, token, oldest, latest, false, serviceUrl⟩

def describe (c : Config) : String :=
  Text.describeRecord "SlackConfig"
    [("channels", Text.describeList (c.channels.map Text.quote)),
      ("token", Text.quote "<redacted>"),
      ("oldest", Text.describeOption (c.oldest.map (·.text))),
      ("latest", Text.describeOption (c.latest.map (·.text))),
      ("api_url", Text.quote c.url)]

end Config

end Intake.Slack
