import Intake.Proofs.Attempts
import Intake.Proofs.Http.Listings
import Intake.Proofs.Time.Numbers
import Intake.Slack.Workspace

/-!
# The window that is asked for

A configuration is accepted if its bounds can be read and are in order, and each request for the
history of a channel has the texts of these bounds. As numbers of seconds, the texts are the bounds
rounded down to the microsecond, if the bounds are from the epoch on and in no leap second;
otherwise they can be other numbers, even in the reverse order.
-/

namespace Intake.Slack

open Text.Decimal (readNumber)
open Time (Instant)

/-! ## Configurations that are accepted -/

namespace Config

theorem readBound_eq_ok {field : String} {given : Option String} {bound : Option Instant} :
    readBound field given = .ok bound ↔ given.map Time.readBound = bound.map some := by
  cases given with
  | none => cases bound <;> simp [readBound]
  | some value =>
      rw [readBound, validBound]
      cases hvalue : Time.readBound value <;> cases bound <;> simp [Except.map, hvalue]

theorem checkWindow_eq_ok {oldest latest : Option Instant} {u : Unit} :
    checkWindow oldest latest = .ok u ↔ ∀ s ∈ oldest, ∀ t ∈ latest, s ≤ t := by
  cases oldest with
  | none => simp [checkWindow]
  | some s => cases latest <;> simp [checkWindow]

/-- A configuration is accepted with the tidy channels, the token and the bounds that are named,
which are in order. -/
theorem ofText_eq_ok {channels : List String} {token : String} {oldest latest : Option String}
    {config : Config} : ofText channels token oldest latest = .ok config ↔
      (tidy channels ≠ [] ∧ Text.isBlankText token = false) ∧
        ∃ s, oldest.map Time.readBound = Option.map some s ∧
          ∃ t, latest.map Time.readBound = Option.map some t ∧ (∀ a ∈ s, ∀ b ∈ t, a ≤ b) ∧
            ⟨tidy channels, token, s, t, false, serviceUrl⟩ = config := by
  unfold ofText
  by_cases hchannels : tidy channels = []
  · simp [hchannels, bind, Except.bind]
  cases htoken : Text.isBlankText token with
  | true => simp [hchannels, bind, Except.bind]
  | false =>
      have hsome : (tidy channels).isEmpty = false := by simpa using hchannels
      rw [and_iff_right ⟨hchannels, rfl⟩]
      simp only [hsome, Bool.false_eq_true, if_false, bind_eq_ok, readBound_eq_ok,
        checkWindow_eq_ok, exists_const, Except.ok.injEq]

end Config

/-! ## Requests for a history -/

variable {σ : Type}

/-- The parameters of the request for a page of the history of a channel. -/
def Channel.query (c : Channel σ) (cursor : Option String) : List (String × String) :=
  (inquiry "conversations.history" c.span.params).query cursor

/-- The number that a request has for a parameter, if it has the parameter, and if what it has is
a number. -/
def Channel.asked (c : Channel σ) (cursor : Option String) (name : String) : Option (Option ℚ) :=
  ((c.query cursor).lookup name).map fun s => readNumber s.toList

theorem Channel.lookup_oldest (c : Channel σ) (cursor : Option String) :
    (c.query cursor).lookup "oldest" = c.span.oldest := by
  obtain ⟨⟨channel, oldest, latest⟩, client, verbose⟩ := c
  cases oldest <;> cases latest <;> cases cursor <;> rfl

theorem Channel.lookup_latest (c : Channel σ) (cursor : Option String) :
    (c.query cursor).lookup "latest" = c.span.latest := by
  obtain ⟨⟨channel, oldest, latest⟩, client, verbose⟩ := c
  cases oldest <;> cases latest <;> cases cursor <;> rfl

namespace Workspace

variable {w : Workspace σ} {c : Channel σ}

theorem config_of_ofConfig {network : Http.Network σ} {patience : Nat} {settings : Settings}
    {config : Config} (h : ofConfig network patience settings config = .ok w) :
    w.config = config := by
  obtain ⟨-, -, h⟩ := bind_eq_ok.mp h
  rw [← Except.ok.inj h]

/-- All channels are asked for in the window of the configuration. -/
theorem span_of_mem_channels (hc : c ∈ w.channels) :
    c.span = ⟨c.span.channel, w.config.oldest.map (·.epochText),
      w.config.latest.map (·.epochText)⟩ := by
  obtain ⟨name, -, rfl⟩ := List.mem_map.mp hc
  rfl

theorem asked_oldest (hc : c ∈ w.channels) (cursor : Option String) :
    c.asked cursor "oldest" = w.config.oldest.map fun t => some t.shown := by
  rw [Channel.asked, c.lookup_oldest, span_of_mem_channels hc, Option.map_map]
  exact Option.map_congr fun t _ => t.readNumber_epochText

theorem asked_latest (hc : c ∈ w.channels) (cursor : Option String) :
    c.asked cursor "latest" = w.config.latest.map fun t => some t.shown := by
  rw [Channel.asked, c.lookup_latest, span_of_mem_channels hc, Option.map_map]
  exact Option.map_congr fun t _ => t.readNumber_epochText

end Workspace

/-- **The window that is asked for.** When a configuration is accepted, its bounds are the instants
that are given, and they are in order. Every request for the history of a channel has a number for
each bound. It is the bound rounded down to the microsecond exactly if the bound has no microseconds,
or if it is from the epoch on and in no leap second. The numbers are in order exactly if the bounds
are in different seconds, or if their fractions are in order, which before the epoch is the reverse
one; so they are if the first bound is from the epoch on and the last one is in no leap second. -/
theorem window_asked_for {channels : List String} {token : String} {oldest latest : Option String}
    {config : Config} (hconfig : Config.ofText channels token oldest latest = .ok config)
    {network : Http.Network σ} {patience : Nat} {settings : Settings} {url : String}
    {verbose : Bool} {w : Workspace σ}
    (hw : Workspace.ofConfig network patience settings { config with url, verbose } = .ok w)
    {c : Channel σ} (hc : c ∈ w.channels) (cursor : Option String) :
    (oldest.map Time.readBound = config.oldest.map some ∧
      latest.map Time.readBound = config.latest.map some) ∧
    (c.asked cursor "oldest" = config.oldest.map (some ·.shown) ∧
      c.asked cursor "latest" = config.latest.map (some ·.shown)) ∧
    (∀ t, t ∈ config.oldest ∨ t ∈ config.latest →
      (t.shown = ⌊t.number * 1000000⌋ / 1000000 ↔
        t.nanos < 1000 ∨ 0 ≤ t.seconds ∧ t.nanos < 1000000000)) ∧
    ∀ s ∈ config.oldest, ∀ t ∈ config.latest, s ≤ t ∧
      (s.shown ≤ t.shown ↔ s.seconds < t.seconds ∨
        if 0 ≤ s.seconds then s.shownFraction ≤ t.shownFraction
        else t.shownFraction ≤ s.shownFraction) ∧
      (0 ≤ s.seconds → t.nanos < 1000000000 → s.shown ≤ t.shown) := by
  obtain ⟨-, first, holdest, last, hlatest, horder, rfl⟩ := Config.ofText_eq_ok.mp hconfig
  have hkept := Workspace.config_of_ofConfig hw
  refine ⟨⟨holdest, hlatest⟩, ⟨?_, ?_⟩, fun t _ => t.shown_eq_iff, fun s hs t ht => ?_⟩
  · rw [Workspace.asked_oldest hc, hkept]
  · rw [Workspace.asked_latest hc, hkept]
  · have hle : s ≤ t := horder s hs t ht
    exact ⟨hle, Instant.shown_le_iff hle, Instant.shown_le_of_nonneg hle⟩

/-! ## Bounds before the epoch and in a leap second -/

/-- One channel between two instants. -/
def between (s t : Instant) : Config := ⟨["C1"], "t", some s, some t, false, serviceUrl⟩

/-- A workspace that nobody answers for. -/
def silent (config : Config) : Workspace Unit :=
  ⟨.within ⟨"d"⟩ ⟨"o"⟩, config, .ofUrl .dead 1 config.url config.token⟩

theorem ofConfig_silent (config : Config) :
    Workspace.ofConfig .dead 1 (.within ⟨"d"⟩ ⟨"o"⟩) config = .ok (silent config) := rfl

theorem exists_asked_between (s t : Instant) : ∃ c ∈ (silent (between s t)).channels,
    c.asked none "oldest" = some (some s.shown) ∧ c.asked none "latest" = some (some t.shown) :=
  have hc : (silent (between s t)).channel "C1" ∈ (silent (between s t)).channels :=
    List.mem_singleton.mpr rfl
  ⟨_, hc, Workspace.asked_oldest hc none, Workspace.asked_latest hc none⟩

/-- A quarter of the last second before the epoch has passed. -/
def quarter : Instant := ⟨-1, 250000000, by decide⟩

def threeQuarters : Instant := ⟨-1, 750000000, by decide⟩

/-- Half of the last second of the year 2016 before its leap second has passed. -/
def half : Instant := ⟨1483228799, 500000000, by decide⟩

def leap : Instant := ⟨1483228799, 1250000000, by decide⟩

theorem shown_quarter : quarter.shown = -5 / 4 := by
  norm_num [Instant.shown, Instant.shownFraction, Instant.places, quarter]

theorem shown_threeQuarters : threeQuarters.shown = -7 / 4 := by
  norm_num [Instant.shown, Instant.shownFraction, Instant.places, threeQuarters]

theorem shown_half : half.shown = 1483228799 + 1 / 2 := by
  norm_num [Instant.shown, Instant.shownFraction, Instant.places, half]

theorem shown_leap : leap.shown = 1483228799 + 1 / 8 := by
  norm_num [Instant.shown, Instant.shownFraction, Instant.places, leap]

/-- From before the epoch until a leap second. -/
theorem window_asked_for_quarter_leap :
    Config.ofText ["C1"] "t" (some "1969-12-31T23:59:59.25Z") (some "2016-12-31T23:59:60.25Z") =
        .ok (between quarter leap) ∧
      ∃ c ∈ (silent (between quarter leap)).channels,
        c.asked none "oldest" = some (some (-5 / 4)) ∧
          c.asked none "latest" = some (some (1483228799 + 1 / 8)) := by
  have hconfig : Config.ofText ["C1"] "t" (some "1969-12-31T23:59:59.25Z")
      (some "2016-12-31T23:59:60.25Z") = .ok (between quarter leap) := by rfl
  have hc : (silent (between quarter leap)).channel "C1" ∈
      (silent (between quarter leap)).channels := List.mem_singleton.mpr rfl
  obtain ⟨-, ⟨holdest, hlatest⟩, -⟩ :=
    window_asked_for hconfig (ofConfig_silent (between quarter leap)) hc none
  refine ⟨hconfig, _, hc, ?_, ?_⟩
  · rw [holdest, ← shown_quarter]
    rfl
  · rw [hlatest, ← shown_leap]
    rfl

/-- Within the last second before the epoch the numbers are in the reverse order, and so they can be
when a leap second begins. -/
theorem bounds_in_reverse :
    (Config.ofText ["C1"] "t" (some "1969-12-31T23:59:59.25Z") (some "1969-12-31T23:59:59.75Z") =
        .ok (between quarter threeQuarters) ∧
      quarter.number = -3 / 4 ∧ threeQuarters.number = -1 / 4 ∧
      ∃ c ∈ (silent (between quarter threeQuarters)).channels,
        c.asked none "oldest" = some (some (-5 / 4)) ∧
          c.asked none "latest" = some (some (-7 / 4))) ∧
    (Config.ofText ["C1"] "t" (some "2016-12-31T23:59:59.5Z") (some "2016-12-31T23:59:60.25Z") =
        .ok (between half leap) ∧
      half.number = 1483228799 + 1 / 2 ∧ leap.number = 1483228800 + 1 / 4 ∧
      ∃ c ∈ (silent (between half leap)).channels,
        c.asked none "oldest" = some (some (1483228799 + 1 / 2)) ∧
          c.asked none "latest" = some (some (1483228799 + 1 / 8))) := by
  constructor
  · have hasked := exists_asked_between quarter threeQuarters
    rw [shown_quarter, shown_threeQuarters] at hasked
    refine ⟨rfl, ?_, ?_, hasked⟩
    · norm_num [Instant.number, quarter]
    · norm_num [Instant.number, threeQuarters]
  · have hasked := exists_asked_between half leap
    rw [shown_half, shown_leap] at hasked
    refine ⟨rfl, ?_, ?_, hasked⟩
    · norm_num [Instant.number, half]
    · norm_num [Instant.number, leap]

end Intake.Slack
