import Intake.Drive.Volume
import Intake.Proofs.Http.Blind

/-!
# Drives that are read with another token

What is told about a file, the items of folders and the bytes of files are asked of the client and
of nobody else. So files whose clients are twins are twins, and so are drives: a walk through their
folders finds the same files or fails in the same place. Two configurations that differ in the token
alone make drives that are twins and are described alike.
-/

namespace Intake.Drive

open Http (Client Reply)

variable {σ τ : Type} {R : σ → τ → Prop} {x : σ} {y : τ}

/-! ## Requests -/

section

variable {client : Client σ} {client' : Client τ} (h : client.Twin R client')

include h

theorem twin_ask {α : Type} (locator path : String) (query : List (String × String))
    (read : Reply → Except Outage α) (hr : R x y) :
    InStep Eq R (ask client locator path query read x) (ask client' locator path query read y) := by
  unfold ask
  obtain ⟨answer, x', y', hx, hy, hr'⟩ := (h.get path query hr).same
  rw [hx, hy]
  rcases answer with failure | reply
  · exact ⟨rfl, hr'⟩
  · exact ⟨rfl, hr'⟩

theorem twin_file? (id : String) (hr : R x y) :
    InStep Eq R (file? client id x) (file? client' id y) :=
  twin_ask h _ _ _ _ hr

theorem twin_children (folder : String) (hr : R x y) :
    InStep Eq R (children client folder x) (children client' folder y) := by
  unfold children
  rw [h.patience]
  refine Pager.twin_gather ?_ client'.patience none hr
  intro next x y hr
  unfold pager
  exact twin_ask h folder "/files"
    (childQuery folder ++ next.toList.map fun n => ("pageToken", n)) readPage hr

theorem twin_content (f : File) (hr : R x y) :
    InStep Eq R (content client f x) (content client' f y) := by
  unfold content
  cases f.exportFormat? with
  | none => exact twin_ask h _ _ _ _ hr
  | some format => exact twin_ask h _ _ _ _ hr

theorem twin_walk (recursive : Bool) (folders : Nat) :
    ∀ pending {x y}, R x y → InStep Eq R (walk client recursive folders pending x)
      (walk client' recursive folders pending y) := by
  induction folders with
  | zero =>
      intro pending x y hr
      rcases pending with _ | ⟨folder, rest⟩
      · exact ⟨rfl, hr⟩
      · exact ⟨rfl, hr⟩
  | succ folders ih =>
      intro pending x y hr
      rcases pending with _ | ⟨folder, rest⟩
      · exact ⟨rfl, hr⟩
      · obtain ⟨answer, x', y', hx, hy, hr'⟩ := (twin_children h folder hr).same
        unfold walk
        rw [hx, hy]
        rcases answer with f | items
        · exact ⟨rfl, hr'⟩
        · -- the same folders are pending from here on
          obtain ⟨found, x'', y'', hx', hy', hr''⟩ :=
            (ih (if recursive then rest ++ foldersAmong items else rest) hr').same
          simp only [hx', hy']
          rcases found with f | files
          · exact ⟨rfl, hr''⟩
          · exact ⟨rfl, hr''⟩

end

/-! ## Files -/

theorem Item.describeClient_twin {client : Client σ} {client' : Client τ}
    (h : client.Twin R client') : describeClient client = describeClient client' := by
  rw [describeClient, describeClient, h.baseUrl]

section

variable {client : Client σ} {client' : Client τ} (h : client.Twin R client') (f : File)

include h

theorem Item.twin_source : (Item.source ⟨f, client⟩).Twin R (Item.source ⟨f, client'⟩) where
  locator := rfl
  extension := rfl
  probe hr := by
    obtain ⟨answer, x', y', hx, hy, hr'⟩ := (twin_file? h f.id hr).same
    simp only [source, probe, hx, hy]
    rcases answer with f | found
    · exact ⟨rfl, hr'⟩
    · exact ⟨rfl, hr'⟩
  download hr := by
    obtain ⟨answer, x', y', hx, hy, hr'⟩ := (twin_content h f hr).same
    simp only [source, download, hx, hy]
    rcases answer with f | bytes
    · exact ⟨rfl, hr'⟩
    · exact ⟨rfl, hr'⟩

theorem Item.describe_twin : Item.describe ⟨f, client⟩ = Item.describe ⟨f, client'⟩ := by
  rw [describe, describe, describeClient_twin h]

end

/-! ## Configurations -/

namespace Config

/-- The same configuration with another token. -/
def withToken (c : Config) (token : String) : Config := { c with token := token }

theorem describe_withToken (c : Config) (token : String) :
    (c.withToken token).describe = c.describe := rfl

/-- Which of two tokens is given makes no other difference, as long as neither is blank. -/
theorem ofText_withToken {a b : String} (ha : Text.isBlankText a = false)
    (hb : Text.isBlankText b = false) (root : String) (extension : Option String)
    (recursive : Bool) :
    Answered (fun c k => c.token = a ∧ k = c.withToken b) (ofText root a extension recursive)
      (ofText root b extension recursive) := by
  unfold ofText
  simp only [ha, hb]
  by_cases hroot : (Text.trim root).isEmpty = true
  · simp only [if_pos hroot]
    exact .error _
  · simp only [if_neg hroot]
    exact .ok ⟨rfl, rfl⟩

end Config

/-! ## Volumes -/

namespace Volume

/-- Drives whose configurations differ at most in the token, with clients that are twins. -/
structure Twin (R : σ → τ → Prop) (v : Volume σ) (k : Volume τ) : Prop where
  settings : v.settings = k.settings
  config : k.config = v.config.withToken k.config.token
  client : v.client.Twin R k.client

namespace Twin

variable {v : Volume σ} {k : Volume τ} (h : v.Twin R k)

include h

theorem candidates (hr : R x y) : InStep Eq R (v.candidates x) (k.candidates y) := by
  have hroot : k.config.root = v.config.root := by
    rw [h.config]
    rfl
  have hrecursive : k.config.recursive = v.config.recursive := by
    rw [h.config]
    rfl
  obtain ⟨answer, x', y', hx, hy, hr'⟩ := (twin_file? h.client v.config.root hr).same
  unfold Volume.candidates
  rw [hroot, hrecursive, hx, hy]
  rcases answer with f | _ | root
  · exact ⟨rfl, hr'⟩
  · exact ⟨rfl, hr'⟩
  · simp only
    by_cases hfolder : root.isFolder = true
    · rw [if_pos hfolder, if_pos hfolder, filesOf, filesOf, h.client.patience]
      exact twin_walk h.client _ _ _ hr'
    · rw [if_neg hfolder, if_neg hfolder]
      exact ⟨rfl, hr'⟩

theorem wanted (files : List File) : v.wanted files = k.wanted files := by
  unfold Volume.wanted
  rw [h.config]
  rfl

theorem connector : v.connector.Twin R k.connector := by
  refine ⟨rfl, h.settings, ?_⟩
  intro x y hr
  obtain ⟨answer, x', y', hx, hy, hr'⟩ := (h.candidates hr).same
  show InStep _ R (v.sources x) (k.sources y)
  unfold sources
  rw [hx, hy]
  cases answer with
  | error f => exact ⟨.error f, hr'⟩
  | ok files =>
      refine ⟨.ok ?_, hr'⟩
      rw [h.wanted, List.forall₂_map_left_iff, List.forall₂_map_right_iff, List.forall₂_same]
      exact fun f _ => Item.twin_source h.client f

theorem describe : v.describe = k.describe := by
  rw [Volume.describe, Volume.describe, h.settings, h.config, Config.describe_withToken,
    Item.describeClient_twin h.client]

end Twin

/-- Which of two tokens a blind service is read with makes no other difference. -/
theorem twin_ofConfig (network : Http.Network σ) (patience : Nat) (settings : Settings)
    (config : Config) {b : String} (ha : Client.fitsHeader config.token = true)
    (hb : Client.fitsHeader b = true) :
    Answered (Twin (network.Heard ("Bearer " ++ config.token) ("Bearer " ++ b)))
      (ofConfig network.noted patience settings config)
      (ofConfig network.noted patience settings (config.withToken b)) := by
  unfold ofConfig
  cases settings.validate with
  | error f => exact .error f
  | ok u => exact .ok ⟨rfl, rfl, Client.twin_ofUrl network patience config.url ha hb⟩

end Volume

end Intake.Drive
