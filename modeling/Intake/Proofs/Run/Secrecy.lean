import Intake.Proofs.Run.Sessions

/-!
# Tokens stay secret

A session begins with a configuration, for which a token is given, and a connector that is made from
it. All that such a session shows is its transcript: the texts in which configuration, client,
connector and sources are printed, what is seen after each step, and the requests that were sent. If
the service is blind to two tokens, then the transcripts with them are the same but for the
authorization of the requests.
-/

namespace Intake.Session

open Http

variable {σ τ : Type}

/-! ## Connectors and what is printed of them -/

/-- What a session reads. -/
inductive Target where
  | slack (channels : List String) (oldest latest : Option String) (verbose : Bool) (url : String)
  | drive (root : String) (extension : Option String) (recursive : Bool) (url : String)

/-- How client and connector are printed, and sources: the channel with a name, or a file. -/
inductive Prints where
  | slack (client connector : String) (channel : String → String)
  | drive (client connector : String) (source : Drive.File → String)

def printsOfSlack (w : Slack.Workspace σ) : Prints :=
  .slack (Slack.Channel.describeClient w.client) w.describe fun name => (w.channel name).describe

def printsOfDrive (v : Drive.Volume σ) : Prints :=
  .drive (Drive.Item.describeClient v.client) v.describe fun f => Drive.Item.describe ⟨f, v.client⟩

/-- How the configuration with a token is printed, and the connector that is made from it. -/
def Target.setUp (network : Network σ) (patience : Nat) (settings : Settings) (token : String) :
    Target → Except Fault (String × Except Fault (Connector σ × Prints))
  | .slack channels oldest latest verbose url =>
    (Slack.Config.ofText channels token oldest latest).map fun config =>
      let config := { config with verbose := verbose, url := url }
      (config.describe, (Slack.Workspace.ofConfig network patience settings config).map fun w =>
        (w.connector, printsOfSlack w))
  | .drive root extension recursive url =>
    (Drive.Config.ofText root token extension recursive).map fun config =>
      let config := { config with url := url }
      (config.describe, (Drive.Volume.ofConfig network patience settings config).map fun v =>
        (v.connector, printsOfDrive v))

/-! ## Transcripts -/

/-- What a session with a connector shows. -/
structure Record where
  prints : Prints
  sights : List Sight
  /-- The requests that were sent, the latest one last. -/
  requests : List Http.Request

/-- What a session shows: a fault if there is no configuration, else how this is printed, and then
a fault if there is no connector, else what is shown with it. -/
abbrev Transcript := Except Fault (String × Except Fault Record)

/-- What a session with a connector in a network that notes its requests shows. -/
def record (steps : List Step) (w : World σ) (made : Connector (σ × List Http.Request) × Prints) :
    Record :=
  let (sights, s) := play made.1 steps ⟨[], w.files, w.remote, []⟩
  ⟨made.2, sights, s.world.remote.2⟩

/-- What a session with a token shows. -/
def transcript (target : Target) (network : Network σ) (patience : Nat) (settings : Settings)
    (steps : List Step) (w : World σ) (token : String) : Transcript :=
  (target.setUp network.noted patience settings token).map fun (text, made) =>
    (text, made.map (record steps w))

/-- The same transcript with the requests under another authorization. -/
def Transcript.under (t : Transcript) (authorization : String) : Transcript :=
  t.map fun (text, shown) => (text, shown.map fun record =>
    { record with requests := record.requests.map (·.under authorization) })

/-! ## Nothing else is shown -/

section

variable {R : σ → τ → Prop}

theorem printsOfSlack_twin {w : Slack.Workspace σ} {k : Slack.Workspace τ} (h : w.Twin R k) :
    printsOfSlack w = printsOfSlack k := by
  have hchannel : (fun name => (w.channel name).describe) =
      fun name => (k.channel name).describe :=
    funext fun name => (h.channel name).describe
  rw [printsOfSlack, printsOfSlack, h.describe, Slack.Channel.describeClient_twin h.client,
    hchannel]

theorem printsOfDrive_twin {v : Drive.Volume σ} {k : Drive.Volume τ} (h : v.Twin R k) :
    printsOfDrive v = printsOfDrive k := by
  have hsource : (fun f => Drive.Item.describe ⟨f, v.client⟩) =
      fun f => Drive.Item.describe ⟨f, k.client⟩ :=
    funext fun f => Drive.Item.describe_twin h.client f
  rw [printsOfDrive, printsOfDrive, h.describe, Drive.Item.describeClient_twin h.client, hsource]

end

variable {network : Network σ} {a b : String}

/-- With one token a target is set up as with the other one: there are the same faults, or the same
texts and connectors that are twins. -/
theorem twin_setUp (target : Target) (network : Network σ) (patience : Nat) (settings : Settings)
    (ha : Text.isBlankText a = false) (hb : Text.isBlankText b = false)
    (hfits : Client.fitsHeader a = true) (hfits' : Client.fitsHeader b = true) :
    Answered (InStep Eq (Answered (InStep
        (Connector.Twin (network.Heard ("Bearer " ++ a) ("Bearer " ++ b))) Eq)))
      (target.setUp network.noted patience settings a)
      (target.setUp network.noted patience settings b) := by
  cases target with
  | slack channels oldest latest verbose url =>
      rw [Target.setUp, Target.setUp]
      apply (Slack.Config.ofText_withToken ha hb channels oldest latest).map
      rintro config _ ⟨rfl, rfl⟩
      refine ⟨rfl, ?_⟩
      apply (Slack.Workspace.twin_ofConfig network patience settings
        { config with verbose := verbose, url := url } hfits hfits').map
      intro w k h
      exact ⟨h.connector, printsOfSlack_twin h⟩
  | drive root extension recursive url =>
      rw [Target.setUp, Target.setUp]
      apply (Drive.Config.ofText_withToken ha hb root extension recursive).map
      rintro config _ ⟨rfl, rfl⟩
      refine ⟨rfl, ?_⟩
      apply (Drive.Volume.twin_ofConfig network patience settings
        { config with url := url } hfits hfits').map
      intro v k h
      exact ⟨h.connector, printsOfDrive_twin h⟩

/-- Connectors that are twins show the same, but for the authorization of the requests. -/
theorem record_twin {c k : Connector (σ × List Http.Request) × Prints} {w : World σ}
    (h : InStep (Connector.Twin (network.Heard a b)) Eq c k) (hblind : network.Blind a b w.remote)
    (steps : List Step) :
    record steps w k =
      { record steps w c with requests := (record steps w c).requests.map (·.under b) } := by
  have hstart : Session.Twin (network.Heard a b) ⟨[], w.files, w.remote, []⟩
      ⟨[], w.files, w.remote, []⟩ := ⟨.nil, rfl, hblind, rfl⟩
  obtain ⟨sights, s, t, hs, ht, hlast⟩ := (twin_play h.1 steps hstart).same
  unfold record
  rw [hs, ht]
  simp only [h.2, hlast.world.remote.2]

/-- **Tokens stay secret.** Whatever a session reads and does, it shows the same with one token as
with another one, as long as neither is blank, both can be sent, and the service is blind to them.
The requests differ in their authorization alone. -/
theorem transcript_eq_under (target : Target) (patience : Nat) (settings : Settings)
    (steps : List Step) (w : World σ) (ha : Text.isBlankText a = false)
    (hb : Text.isBlankText b = false) (hfits : Client.fitsHeader a = true)
    (hfits' : Client.fitsHeader b = true)
    (hblind : network.Blind ("Bearer " ++ a) ("Bearer " ++ b) w.remote) :
    transcript target network patience settings steps w b =
      (transcript target network patience settings steps w a).under ("Bearer " ++ b) := by
  have hsetUp := twin_setUp target network patience settings ha hb hfits hfits'
  unfold transcript Transcript.under
  apply Answered.eq_map
  apply hsetUp.map
  rintro ⟨text, made⟩ ⟨text', made'⟩ ⟨htext, hmade⟩
  obtain rfl : text = text' := htext
  exact congrArg (Prod.mk text) (hmade.map fun h => record_twin h hblind steps).eq_map

/-! ## A session with a channel -/

/-- A server that has one message for everybody. -/
def bulletin : Scripted.Server :=
  let report : Json := .object
    [("ok", .bool true), ("messages", .array [(⟨"1.5", "hi", 0, none⟩ : Slack.Message).toJson])]
  ⟨[⟨none, [], ⟨[⟨.ok, some report.pretty.toUTF8⟩]⟩⟩], [], 100, true⟩

/-- What is shown where the channel of the server is looked for and then read in a whole run. -/
def bulletinShown (token : String) : Transcript :=
  transcript (.slack ["C1"] none none false "http://s") Scripted.network 1
    (.within ⟨"downloads"⟩ ⟨"output"⟩)
    [.enumerate, .call 0 .isThere,
      .run (Processing.processor Processing.defaultCleaners) (.steady .epoch) .inOrder, .cleanUp]
    ⟨⟨.empty, []⟩, bulletin⟩ token

/-- The authorizations of the requests that a transcript shows. -/
def Transcript.authorizations : Transcript → List String
  | .ok (_, .ok record) => record.requests.map (·.authorization)
  | _ => []

theorem transcript_eq_under_bulletin :
    (Text.isBlankText "a" = false ∧ Text.isBlankText "b" = false ∧
      Client.fitsHeader "a" = true ∧ Client.fitsHeader "b" = true ∧
      Scripted.network.Blind ("Bearer " ++ "a") ("Bearer " ++ "b") bulletin) ∧
    bulletinShown "b" = (bulletinShown "a").under ("Bearer " ++ "b") ∧
    (bulletinShown "b").authorizations = List.replicate 2 "Bearer b" := by
  have hblind := Scripted.blind_network ("Bearer " ++ "a") ("Bearer " ++ "b") bulletin
  have ha : Text.isBlankText "a" = false := by decide +kernel
  have hb : Text.isBlankText "b" = false := by decide +kernel
  have hfits : Client.fitsHeader "a" = true := by decide +kernel
  have hfits' : Client.fitsHeader "b" = true := by decide +kernel
  refine ⟨⟨ha, hb, hfits, hfits', hblind⟩, ?_, by decide +kernel⟩
  exact transcript_eq_under _ _ _ _ _ ha hb hfits hfits' hblind

end Intake.Session
