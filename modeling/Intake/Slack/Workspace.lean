import Intake.Run.Connector
import Intake.Run.Distinct
import Intake.Slack.Channel
import Intake.Slack.Config

/-!
# The connector to a workspace

Each channel of the configuration is one document, however often it is named.
-/

namespace Intake.Slack

open Http (Client Network)

structure Workspace (σ : Type) where
  settings : Settings
  config : Config
  client : Client σ

namespace Workspace

variable {σ : Type}

/-- The workspace of a configuration; the settings have to be fit for a run. -/
def ofConfig (network : Network σ) (patience : Nat) (settings : Settings) (config : Config) :
    Except Fault (Workspace σ) := do
  settings.validate
  .ok ⟨settings, config, .ofUrl network patience config.url config.token⟩

def channel (w : Workspace σ) (name : String) : Channel σ :=
  ⟨⟨name, w.config.oldest.map (·.epochText), w.config.latest.map (·.epochText)⟩, w.client,
    w.config.verbose⟩

def channels (w : Workspace σ) : List (Channel σ) :=
  (Run.firsts id w.config.channels).map w.channel

def connector (w : Workspace σ) : Connector σ :=
  ⟨"slack", w.settings, fun remote => (.ok (w.channels.map Channel.source), remote)⟩

def describe (w : Workspace σ) : String :=
  Text.describeRecord "SlackConnector"
    [("settings", w.settings.describe), ("config", w.config.describe),
      ("client", Channel.describeClient w.client)]

end Workspace

end Intake.Slack
