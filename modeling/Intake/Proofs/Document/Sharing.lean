import Intake.Drive.Volume
import Intake.Proofs.Document.Places
import Intake.Proofs.Run.Distinct
import Intake.Slack.Workspace

/-!
# Documents that share files

Two documents with the same settings write the same file exactly where their locators have
one stem. The connectors give each locator once; so, as long as digests tell the locators of
a run apart, two of its documents share a file exactly where the locator of one of them is
what the locator of the other one is made into.
-/

namespace Intake

namespace Document

open Files

/-! ## Paths -/

theorem outputName_inj {a b : String} : outputName a = outputName b ↔ stem a = stem b := by
  rw [← String.toList_inj, toList_outputName, toList_outputName, List.append_left_inj,
    String.toList_inj]

theorem stagedName_inj {a b extension : String} :
    stagedName a extension = stagedName b extension ↔ stem a = stem b := by
  rw [← String.toList_inj, toList_stagedName, toList_stagedName, List.append_left_inj,
    String.toList_inj]

/-- A staged file has a name that does not begin at the root. -/
theorem head?_stagedName (locator extension : String) :
    (stagedName locator extension).toList.head? ≠ some '/' := by
  have hstem := slash_notMem_stem locator
  rw [toList_stagedName]
  cases hcs : (stem locator).toList with
  | nil => split <;> simp
  | cons c rest =>
      rw [hcs] at hstem
      intro h
      rw [List.cons_append, List.head?_cons, Option.some.injEq] at h
      exact hstem (h ▸ List.mem_cons_self)

variable {σ : Type}

theorem outputPath_inj {d e : Document σ} (h : d.settings = e.settings) :
    d.outputPath = e.outputPath ↔ stem d.locator = stem e.locator := by
  rw [outputPath, outputPath, h,
    Path.join_inj (ordinaryName_outputName _).head? (ordinaryName_outputName _).head?,
    outputName_inj]

theorem stagingPath_inj {d e : Document σ} (h : d.settings = e.settings)
    (hextension : d.source.extension = e.source.extension) :
    d.stagingPath = e.stagingPath ↔ stem d.locator = stem e.locator := by
  rw [stagingPath, stagingPath, h, hextension,
    Path.join_inj (head?_stagedName _ _) (head?_stagedName _ _), stagedName_inj]

theorem outputPlace_inj {d e : Document σ} (h : d.settings = e.settings) (cwd : Location) :
    d.outputPlace cwd = e.outputPlace cwd ↔ stem d.locator = stem e.locator := by
  rw [outputPlace_eq, outputPlace_eq, h, List.append_right_inj, List.cons.injEq,
    and_iff_left rfl, outputName_inj]

/-- Whether digests tell the locators of some documents apart. -/
def ToldApart (ds : List (Document σ)) : Prop :=
  ∀ d ∈ ds, ∀ e ∈ ds, shortDigest d.locator = shortDigest e.locator → d.locator = e.locator

instance (ds : List (Document σ)) : Decidable (ToldApart ds) := by
  unfold ToldApart
  infer_instance

end Document

/-! ## Runs -/

namespace Connector

open Document

variable {σ : Type}

/-- The connectors to the two services. -/
inductive OfService : Connector σ → Prop
  | workspace (w : Slack.Workspace σ) : OfService w.connector
  | volume (v : Drive.Volume σ) : OfService v.connector

/-- Both services give each locator once. -/
theorem OfService.nodup_list {c : Connector σ} (hc : c.OfService) {remote after : σ}
    {sources : List (Source σ)} (h : c.list remote = (.ok sources, after)) :
    (sources.map (·.locator)).Nodup := by
  cases hc with
  | workspace w =>
      obtain ⟨rfl, -⟩ : w.channels.map Slack.Channel.source = sources ∧ remote = after := by
        simpa [Slack.Workspace.connector] using h
      have hfirsts := Run.nodup_firsts id w.config.channels
      rw [Slack.Workspace.channels, List.map_map, List.map_map]
      exact hfirsts
  | volume v =>
      change v.sources remote = _ at h
      rw [Drive.Volume.sources] at h
      cases hfiles : v.candidates remote with
      | mk answer remote' =>
          cases answer with
          | error f => simp [hfiles] at h
          | ok files =>
              rw [hfiles] at h
              obtain ⟨rfl, -⟩ : (v.wanted files).map (fun f => Drive.Item.source ⟨f, v.client⟩) =
                  sources ∧ remote' = after := by simpa using h
              rw [List.map_map]
              exact Run.nodup_firsts _ _

/-- The documents of a listing have the settings of the connector and locators of their own. -/
theorem OfService.documents {c : Connector σ} (hc : c.OfService) {remote after : σ}
    {ds : List (Document σ)} (h : c.documents remote = (.ok ds, after)) :
    (∀ d ∈ ds, d.settings = c.settings) ∧ (ds.map (·.locator)).Nodup := by
  rw [Connector.documents] at h
  cases hlist : c.list remote with
  | mk answer remote' =>
      cases answer with
      | error f => simp [hlist] at h
      | ok sources =>
          obtain ⟨rfl, -⟩ : sources.map (ofSource c.settings) = ds ∧ remote' = after := by
            simpa [hlist] using h
          constructor
          · intro d hd
            obtain ⟨source, _, rfl⟩ := List.mem_map.mp hd
            rfl
          · rw [List.map_map]
            exact hc.nodup_list hlist

/-- The results of a run are different files exactly where no locator is the stem of another. -/
theorem nodup_outputPlaces {settings : Settings} {ds : List (Document σ)}
    (hsettings : ∀ d ∈ ds, d.settings = settings) (hnodup : (ds.map (·.locator)).Nodup)
    (happart : ToldApart ds) (cwd : Files.Location) :
    (ds.map (·.outputPlace cwd)).Nodup ↔
      ds.Pairwise fun d e => ¬Mimics d.locator e.locator := by
  rw [List.Nodup, List.pairwise_map] at hnodup ⊢
  have hboth : ∀ {d e : Document σ}, d ∈ ds → e ∈ ds → d.locator ≠ e.locator →
      (d.outputPlace cwd ≠ e.outputPlace cwd ↔ ¬Mimics d.locator e.locator) := by
    intro d e hd he hne
    rw [ne_eq, outputPlace_inj ((hsettings d hd).trans (hsettings e he).symm),
      stem_eq_iff hne fun heq => hne (happart d hd e he heq)]
  constructor
  · intro h
    exact (hnodup.and h).imp_of_mem fun hd he hboth' => (hboth hd he hboth'.1).mp hboth'.2
  · intro h
    exact (hnodup.and h).imp_of_mem fun hd he hboth' => (hboth hd he hboth'.1).mpr hboth'.2

/-- **Documents that share files.** As long as their digests tell two locators apart, documents of
them have one result, and one staged file if they have one extension, exactly where one of the
locators is what the other one is made into; and the documents of a run are written to different
files exactly where none of its locators is what another one is made into. -/
theorem files_shared_iff :
    (∀ (settings : Settings) (s t : Source σ), s.locator ≠ t.locator →
      shortDigest s.locator ≠ shortDigest t.locator →
      ((ofSource settings s).outputPath = (ofSource settings t).outputPath ↔
        Mimics s.locator t.locator) ∧
      (s.extension = t.extension →
        ((ofSource settings s).stagingPath = (ofSource settings t).stagingPath ↔
          Mimics s.locator t.locator))) ∧
    ∀ c : Connector σ, c.OfService → ∀ remote ds after,
      c.documents remote = (.ok ds, after) → ToldApart ds → ∀ cwd,
        ((ds.map (·.outputPlace cwd)).Nodup ↔
          ds.Pairwise fun d e => ¬Mimics d.locator e.locator) := by
  constructor
  · intro settings s t hne hdigest
    have hsettings : (ofSource settings s).settings = (ofSource settings t).settings := rfl
    have hstem := stem_eq_iff hne hdigest
    constructor
    · rw [← hstem]
      exact outputPath_inj hsettings
    · intro hextension
      rw [← hstem]
      exact stagingPath_inj hsettings hextension
  · intro c hc remote ds after hdocuments happart cwd
    obtain ⟨hsettings, hnodup⟩ := hc.documents hdocuments
    exact nodup_outputPlaces hsettings hnodup happart cwd

/-- A workspace of these channels in which nobody answers. -/
def silent (channels : List String) : Slack.Workspace Unit :=
  ⟨.within ⟨"d"⟩ ⟨"o"⟩, ⟨channels, "t", none, none, false, "http://s"⟩,
    .ofUrl .dead 1 "http://s" "t"⟩

/-- The documents of such a workspace. -/
def silentDocuments (channels : List String) : List (Document Unit) :=
  (silent channels).channels.map fun c => ofSource (silent channels).settings c.source

/-! The digests of three names, which are expensive to compute, and the stem that follows. -/

theorem shortDigest_slash : shortDigest "a/b" = "c14cddc0".toList := by decide +kernel

theorem shortDigest_underscore : shortDigest "a_b" = "648fa9b3".toList := by decide +kernel

theorem shortDigest_stem : shortDigest "a_b-c14cddc0" = "10ed7bd6".toList := by decide +kernel

theorem stem_slash : stem "a/b" = "a_b-c14cddc0" := by
  rw [← String.toList_inj, toList_stem (by decide), shortDigest_slash]
  decide

theorem not_mimics : ¬Mimics "a/b" "a_b" := by
  rw [Mimics, stem_slash, stem_of_plain (by decide)]
  decide

theorem files_shared_iff_silent :
    shortDigest "a/b" ≠ shortDigest "a_b" ∧ ToldApart (silentDocuments ["a/b", "a_b"]) ∧
      (ofSource (silent []).settings ((silent []).channel "a/b").source).outputPath ≠
        (ofSource (silent []).settings ((silent []).channel "a_b").source).outputPath ∧
      ((silentDocuments ["a/b", "a_b"]).map (·.outputPlace [])).Nodup := by
  have hdigest : shortDigest "a/b" ≠ shortDigest "a_b" := by
    rw [shortDigest_slash, shortDigest_underscore]
    decide
  have happart : ToldApart (silentDocuments ["a/b", "a_b"]) := by
    have hlocators : ∀ d ∈ silentDocuments ["a/b", "a_b"], d.locator = "a/b" ∨ d.locator = "a_b" :=
      List.forall_mem_cons.mpr ⟨Or.inl rfl, List.forall_mem_singleton.mpr (Or.inr rfl)⟩
    intro d hd e he heq
    rcases hlocators d hd with hd | hd <;> rcases hlocators e he with he | he
    all_goals rw [hd, he] at heq ⊢
    · exact absurd heq hdigest
    · exact absurd heq.symm hdigest
  have hdocuments : (silent ["a/b", "a_b"]).connector.documents () =
      (.ok (silentDocuments ["a/b", "a_b"]), ()) := rfl
  have hnone : (silentDocuments ["a/b", "a_b"]).Pairwise
      fun d e => ¬Mimics d.locator e.locator :=
    List.pairwise_cons.mpr ⟨List.forall_mem_singleton.mpr not_mimics, List.pairwise_singleton _ _⟩
  refine ⟨hdigest, happart, fun heq => not_mimics ?_, ?_⟩
  · exact (files_shared_iff.1 _ ((silent []).channel "a/b").source
      ((silent []).channel "a_b").source (by decide) hdigest).1.mp heq
  · exact (files_shared_iff.2 _ (.workspace (silent ["a/b", "a_b"])) () _ () hdocuments happart
      []).mpr hnone

/-- Channels of different names share a result where the name of one looks like a stem. -/
theorem mimic_shares_files :
    ¬∀ (settings : Settings) (s t : Source Unit), s.locator ≠ t.locator →
      shortDigest s.locator ≠ shortDigest t.locator →
      (ofSource settings s).outputPath ≠ (ofSource settings t).outputPath := by
  intro h
  have hdigest : shortDigest "a/b" ≠ shortDigest "a_b-c14cddc0" := by
    rw [shortDigest_slash, shortDigest_stem]
    decide
  have hname : outputName "a/b" = outputName "a_b-c14cddc0" :=
    outputName_inj.mpr (by rw [← stem_slash, stem_stem])
  exact h (silent []).settings ((silent []).channel "a/b").source
    ((silent []).channel "a_b-c14cddc0").source (by decide) hdigest
    (congrArg (silent []).settings.outputDir.join hname)

end Connector

end Intake
