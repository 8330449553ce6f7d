import Intake.Proofs.Http.Blind
import Intake.Slack.Workspace

/-!
# Workspaces that are read with another token

A channel asks its client and nobody else. So channels whose clients are twins are twins, whatever
is reported: pages, threads, faults or nothing. Two configurations that differ in the token alone
make workspaces that are twins and are described alike.
-/

namespace Intake.Slack

open Http (Client)

variable {σ τ : Type} {R : σ → τ → Prop} {x : σ} {y : τ}

/-! ## Histories -/

section

variable {client : Client σ} {client' : Client τ} (h : client.Twin R client')

include h

theorem twin_messages (method channel : String) (params : List (String × String)) (hr : R x y) :
    InStep Eq R (messages client method channel params x)
      (messages client' method channel params y) := by
  unfold messages
  rw [h.patience]
  refine Pager.twin_gather ?_ client'.patience none hr
  intro cursor x y hr
  unfold pager
  obtain ⟨answer, x', y', hx, hy, hr'⟩ := (h.get ("/" ++ method)
    (params ++ [("limit", pageLimit)] ++ cursor.toList.map fun c => ("cursor", c)) hr).same
  simp only [hx, hy]
  rcases answer with failure | reply
  · exact ⟨rfl, hr'⟩
  · exact ⟨rfl, hr'⟩

theorem twin_history (s : Span) (hr : R x y) :
    InStep Eq R (history client s x) (history client' s y) := by
  obtain ⟨answer, x', y', hx, hy, hr'⟩ :=
    (twin_messages h "conversations.history" s.channel s.params hr).same
  unfold history
  rw [hx, hy]
  -- only a fault that the service reports is looked at
  cases answer with
  | ok ms => exact ⟨rfl, hr'⟩
  | error f =>
      cases f with
      | unavailable locator reason =>
          cases reason with
          | reported code =>
              by_cases hcode : code = channelNotFound
              · simp only [if_pos hcode]
                exact ⟨rfl, hr'⟩
              · simp only [if_neg hcode]
                exact ⟨rfl, hr'⟩
          | _ => exact ⟨rfl, hr'⟩
      | _ => exact ⟨rfl, hr'⟩

theorem twin_replies (channel stamp : String) (hr : R x y) :
    InStep Eq R (replies client channel stamp x) (replies client' channel stamp y) :=
  twin_messages h _ _ _ hr

end

/-! ## Channels -/

namespace Channel

/-- The same part of the same channel, asked for by clients that are twins. -/
structure Twin (R : σ → τ → Prop) (c : Channel σ) (k : Channel τ) : Prop where
  span : c.span = k.span
  client : c.client.Twin R k.client
  verbose : c.verbose = k.verbose

theorem describeClient_twin {client : Client σ} {client' : Client τ} (h : client.Twin R client') :
    describeClient client = describeClient client' := by
  rw [describeClient, describeClient, h.baseUrl]

namespace Twin

variable {c : Channel σ} {k : Channel τ} (h : c.Twin R k)

include h

theorem complete (m : Message) (hr : R x y) : InStep Eq R (c.complete m x) (k.complete m y) := by
  unfold Channel.complete
  by_cases hreplies : m.hasReplies = true
  · rw [if_pos hreplies, if_pos hreplies, h.span]
    obtain ⟨answer, x', y', hx, hy, hr'⟩ := (twin_replies h.client k.span.channel m.stamp hr).same
    rw [hx, hy]
    rcases answer with f | thread
    · exact ⟨rfl, hr'⟩
    · exact ⟨rfl, hr'⟩
  · rw [if_neg hreplies, if_neg hreplies]
    exact ⟨rfl, hr⟩

theorem completeAll (ms : List Message) :
    ∀ {x y}, R x y → InStep Eq R (c.completeAll ms x) (k.completeAll ms y) := by
  induction ms with
  | nil => exact fun hr => ⟨rfl, hr⟩
  | cons m rest ih =>
      intro x y hr
      unfold Channel.completeAll
      obtain ⟨answer, x', y', hx, hy, hr'⟩ := (h.complete m hr).same
      rw [hx, hy]
      rcases answer with f | m
      · exact ⟨rfl, hr'⟩
      · obtain ⟨others, x'', y'', hx', hy', hr''⟩ := (ih hr').same
        simp only [hx', hy']
        rcases others with f | ms
        · exact ⟨rfl, hr''⟩
        · exact ⟨rfl, hr''⟩

theorem probe (hr : R x y) : InStep Eq R (c.probe x) (k.probe y) := by
  unfold Channel.probe
  rw [h.span]
  obtain ⟨answer, x', y', hx, hy, hr'⟩ := (twin_history h.client k.span hr).same
  rw [hx, hy]
  rcases answer with f | _ | ms
  · exact ⟨rfl, hr'⟩
  · exact ⟨rfl, hr'⟩
  · exact ⟨rfl, hr'⟩

theorem download (hr : R x y) : InStep Eq R (c.download x) (k.download y) := by
  unfold Channel.download
  rw [h.span]
  obtain ⟨answer, x', y', hx, hy, hr'⟩ := (twin_history h.client k.span hr).same
  rw [hx, hy]
  rcases answer with f | _ | ms
  · exact ⟨rfl, hr'⟩
  · exact ⟨rfl, hr'⟩
  · obtain ⟨completed, x'', y'', hx', hy', hr''⟩ := (h.completeAll ms hr').same
    simp only [hx', hy']
    rcases completed with f | ms
    · exact ⟨rfl, hr''⟩
    · exact ⟨rfl, hr''⟩

theorem source : c.source.Twin R k.source where
  locator := congrArg Span.channel h.span
  extension := rfl
  probe := h.probe
  download := h.download

theorem describe : c.describe = k.describe := by
  rw [Channel.describe, Channel.describe, h.span, h.verbose, describeClient_twin h.client]

end Twin

end Channel

/-! ## Configurations -/

namespace Config

/-- The same configuration with another token. -/
def withToken (c : Config) (token : String) : Config := { c with token := token }

theorem describe_withToken (c : Config) (token : String) :
    (c.withToken token).describe = c.describe := rfl

/-- Which of two tokens is given makes no other difference, as long as neither is blank. -/
theorem ofText_withToken {a b : String} (ha : Text.isBlankText a = false)
    (hb : Text.isBlankText b = false) (channels : List String) (oldest latest : Option String) :
    Answered (fun c k => c.token = a ∧ k = c.withToken b) (ofText channels a oldest latest)
      (ofText channels b oldest latest) := by
  unfold ofText
  simp only [ha, hb]
  by_cases hchannels : (tidy channels).isEmpty = true
  · simp only [if_pos hchannels]
    exact .error _
  · simp only [if_neg hchannels]
    cases readBound "oldest" oldest with
    | error f => exact .error f
    | ok first =>
        cases readBound "latest" latest with
        | error f => exact .error f
        | ok last =>
            show Answered _ (checkWindow first last >>= fun _ => _)
              (checkWindow first last >>= fun _ => _)
            cases checkWindow first last with
            | error f => exact .error f
            | ok u => exact .ok ⟨rfl, rfl⟩

end Config

/-! ## Workspaces -/

namespace Workspace

/-- Workspaces whose configurations differ at most in the token, with clients that are twins. -/
structure Twin (R : σ → τ → Prop) (w : Workspace σ) (k : Workspace τ) : Prop where
  settings : w.settings = k.settings
  config : k.config = w.config.withToken k.config.token
  client : w.client.Twin R k.client

namespace Twin

variable {w : Workspace σ} {k : Workspace τ} (h : w.Twin R k)

include h

theorem channel (name : String) : (w.channel name).Twin R (k.channel name) := by
  unfold Workspace.channel
  rw [h.config]
  exact ⟨rfl, h.client, rfl⟩

theorem connector : w.connector.Twin R k.connector := by
  refine ⟨rfl, h.settings, fun hr => ⟨.ok ?_, hr⟩⟩
  have hchannels : k.config.channels = w.config.channels := by
    rw [h.config]
    rfl
  unfold channels
  rw [hchannels, List.forall₂_map_left_iff, List.forall₂_map_right_iff,
    List.forall₂_map_left_iff, List.forall₂_map_right_iff, List.forall₂_same]
  exact fun name _ => (h.channel name).source

theorem describe : w.describe = k.describe := by
  rw [Workspace.describe, Workspace.describe, h.settings, h.config, Config.describe_withToken,
    Channel.describeClient_twin h.client]

end Twin

/-- Which of two tokens a blind service is read with makes no other difference. -/
theorem twin_ofConfig (network : Http.Network σ) (patience : Nat) (settings : Settings)
    (config : Config) {b : String} (ha : Client.fitsHeader config.token = true)
    (hb : Client.fitsHeader b = true) :
    Answered (Twin (network.Heard ("Bearer " ++ config.token) ("Bearer " ++ b)))
      (ofConfig network.noted patience settings config)
      (ofConfig network.noted patience settings (config.withToken b)) := by
  unfold ofConfig
  cases settings.validate with
  | error f => exact .error f
  | ok u => exact .ok ⟨rfl, rfl, Client.twin_ofUrl network patience config.url ha hb⟩

end Workspace

end Intake.Slack
