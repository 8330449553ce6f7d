import Intake.Drive.Walk
import Intake.Proofs.Drive.Levels
import Intake.Proofs.Http.Listings

/-!
# Walks through folders

A walk takes up folders in a queue, and what it does is to list the folders of each level below its
first one, level by level, as long as no listing fails. It does not note where it has been: a folder
is listed once for each way to it, and the walk comes to an end only if there is a last level.
-/

namespace Intake

open Http (Client Inquiry Reply Request Serves gathered)

variable {σ α : Type}

/-! ## Pages, with more or less patience -/

/-- The same client with the patience for another number of pages. -/
def Http.Client.patient (c : Client σ) (patience : Nat) : Client σ :=
  { c with patience := patience }

/-- What a service gives has nothing to do with patience. -/
theorem Http.Serves.patient {client : Client σ} {i : Inquiry} {Means : Reply → Http.Turn α → Prop}
    {name : Option String} {remote remote' : σ} {pages : List (List α × String)}
    {ending : Except Outage (List α)}
    (h : Serves client i Means name remote pages ending remote') (patience : Nat) :
    Serves (client.patient patience) i Means name remote pages ending remote' := by
  induction h with
  | last hget hmeans => exact .last hget hmeans
  | failed hget hmeans => exact .failed hget hmeans
  | silent hget => exact .silent hget
  | more hget hmeans _ ih => exact .more hget hmeans ih

/-- What a listing came to with some patience, it comes to with more of it as well, unless it was
given up. -/
theorem Pager.gather_of_le {pager : Pager σ α} {patience more : Nat} {name : Option String}
    {remote remote' : σ} {r : Except Fault (List α)}
    (h : pager.gather patience name remote = (r, remote')) (hr : r ≠ .error .unfinished)
    (hle : patience ≤ more) : pager.gather more name remote = (r, remote') := by
  induction patience generalizing more name remote remote' r with
  | zero =>
      cases h
      exact absurd rfl hr
  | succ patience ih =>
      obtain ⟨more, rfl⟩ := Nat.exists_eq_add_of_lt hle
      rw [gather] at h ⊢
      cases hpage : pager name remote with
      | mk first middle =>
          rw [hpage] at h
          cases first with
          | error f => exact h
          | ok page =>
              simp only at h ⊢
              cases hnext : page.next with
              | none =>
                  rw [hnext] at h
                  exact h
              | some next =>
                  rw [hnext] at h
                  simp only at h ⊢
                  cases hrest : gather pager patience (some next) middle with
                  | mk rest last =>
                      rw [hrest] at h
                      have hsame := @ih (patience + more) _ _ _ _ hrest
                      cases rest with
                      | ok items =>
                          rw [hsame (by simp) (Nat.le_add_right patience more)]
                          exact h
                      | error f =>
                          obtain ⟨rfl, rfl⟩ := Prod.mk.inj h
                          rw [hsame (fun heq => hr (by cases heq; rfl))
                            (Nat.le_add_right patience more)]

/-- What is gathered from some pages was on one of them. -/
theorem Pager.exists_page {pager : Pager σ α} {patience : Nat} {name : Option String}
    {remote : σ} {items : List α} (h : (pager.gather patience name remote).1 = .ok items) :
    ∀ a ∈ items, ∃ name' remote' page, (pager name' remote').1 = .ok page ∧ a ∈ page.items := by
  induction patience generalizing name remote items with
  | zero => cases h
  | succ patience ih =>
      rw [gather] at h
      cases hpage : pager name remote with
      | mk r middle =>
          rw [hpage] at h
          cases r with
          | error f => cases h
          | ok page =>
              have hfirst : (pager name remote).1 = .ok page := congrArg Prod.fst hpage
              simp only at h
              split at h
              · cases h
                exact fun a ha => ⟨name, remote, page, hfirst, ha⟩
              · split at h
                · next rest last hrest =>
                    cases h
                    intro a ha
                    rcases List.mem_append.mp ha with ha | ha
                    · exact ⟨name, remote, page, hfirst, ha⟩
                    · exact ih (congrArg Prod.fst hrest) a ha
                · cases h

namespace Drive

/-! ## Folders one after the other -/

/-- A listing, and then another one if the first one did not fail. -/
def andThen (first : Except Fault (List File) × σ)
    (second : σ → Except Fault (List File) × σ) : Except Fault (List File) × σ :=
  match first with
  | (.error f, remote) => (.error f, remote)
  | (.ok files, remote) =>
    match second remote with
    | (.ok rest, remote) => (.ok (files ++ rest), remote)
    | (.error f, remote) => (.error f, remote)

theorem andThen_assoc (first : Except Fault (List File) × σ)
    (second third : σ → Except Fault (List File) × σ) :
    andThen (andThen first second) third =
      andThen first fun remote => andThen (second remote) third := by
  obtain ⟨r, remote⟩ := first
  cases r with
  | error f => rfl
  | ok files =>
      simp only [andThen]
      obtain ⟨r, remote'⟩ := second remote
      cases r with
      | error f => rfl
      | ok files' =>
          simp only
          obtain ⟨r, remote''⟩ := third remote'
          cases r with
          | error f => rfl
          | ok files'' => simp only [List.append_assoc]

/-- Both listings succeeded. -/
theorem andThen_eq_ok {first : Except Fault (List File) × σ}
    {second : σ → Except Fault (List File) × σ} {files : List File} {remote : σ}
    (h : andThen first second = (.ok files, remote)) :
    ∃ front middle back, first = (.ok front, middle) ∧ second middle = (.ok back, remote) ∧
      files = front ++ back := by
  obtain ⟨r, middle⟩ := first
  cases r with
  | error f => cases h
  | ok front =>
      simp only [andThen] at h
      cases hsecond : second middle with
      | mk r remote' =>
          rw [hsecond] at h
          cases r with
          | error f => cases h
          | ok back =>
              cases h
              exact ⟨front, middle, back, rfl, hsecond, rfl⟩

/-- The files in a folder. -/
def filesIn (client : Client σ) (folder : String) (remote : σ) : Except Fault (List File) × σ :=
  ((children client folder remote).1.map filesAmong, (children client folder remote).2)

/-- The files in some folders, which are listed one after the other as long as none fails. -/
def inspect (client : Client σ) : List String → σ → Except Fault (List File) × σ
  | [], remote => (.ok [], remote)
  | folder :: rest, remote => andThen (filesIn client folder remote) (inspect client rest)

theorem inspect_append (client : Client σ) (front back : List String) (remote : σ) :
    inspect client (front ++ back) remote =
      andThen (inspect client front remote) (inspect client back) := by
  induction front generalizing remote with
  | nil =>
      rw [List.nil_append, inspect, andThen]
      obtain ⟨r, remote'⟩ := inspect client back remote
      cases r <;> rfl
  | cons folder rest ih =>
      rw [List.cons_append, inspect, inspect, andThen_assoc, ← funext ih]

/-! ## Walks -/

/-- What a walk finds was listed in some folder. -/
theorem listed_of_walk {client : Client σ} {recursive : Bool} {folders : Nat}
    {pending : List String} {remote : σ} {files : List File}
    (h : (walk client recursive folders pending remote).1 = .ok files) :
    ∀ f ∈ files, ∃ folder remote' items,
      (children client folder remote').1 = .ok items ∧ f ∈ items := by
  induction folders generalizing pending remote files with
  | zero =>
      cases pending with
      | nil =>
          cases h
          exact fun f hf => (List.not_mem_nil hf).elim
      | cons folder pending => cases h
  | succ folders ih =>
      cases pending with
      | nil =>
          rw [walk] at h
          cases h
          exact fun f hf => (List.not_mem_nil hf).elim
      | cons folder pending =>
          rw [walk] at h
          cases hlisted : children client folder remote with
          | mk r middle =>
              rw [hlisted] at h
              cases r with
              | error f => cases h
              | ok items =>
                  simp only at h
                  split at h
                  · next rest last hrest =>
                      cases h
                      intro f hf
                      rcases List.mem_append.mp hf with hf | hf
                      · exact ⟨folder, remote, items, congrArg Prod.fst hlisted,
                          List.mem_of_mem_filter hf⟩
                      · exact ih (congrArg Prod.fst hrest) f hf
                  · cases h

/-- Whether all that can be listed below a folder holds the folders that are below it. -/
def Charts (below : String → List String) (client : Client σ) (folders : List String) : Prop :=
  ∀ root ∈ folders, ∀ folder, Reaches below root folder → ∀ remote items,
    (children client folder remote).1 = .ok items → foldersAmong items = below folder

section

variable {client : Client σ} {below : String → List String} {folder : String}
  {pending front back : List String}

theorem Charts.of_subset (h : Charts below client front) (hsubset : back ⊆ front) :
    Charts below client back := fun root hroot => h root (hsubset hroot)

theorem Charts.flatMap (h : Charts below client front) :
    Charts below client (front.flatMap below) := by
  intro root hroot folder hreach
  obtain ⟨parent, hparent, hbelow⟩ := List.mem_flatMap.mp hroot
  exact h parent hparent folder (.head hbelow hreach)

theorem Charts.append (hfront : Charts below client front) (hback : Charts below client back) :
    Charts below client (front ++ back) :=
  List.forall_mem_append.mpr ⟨hfront, hback⟩

/-- A folder is listed, and the folders in it are put behind those that are pending. -/
theorem walk_cons (h : Charts below client [folder]) (folders : Nat) (pending : List String)
    (remote : σ) :
    walk client true (folders + 1) (folder :: pending) remote =
      andThen (filesIn client folder remote)
        (walk client true folders (pending ++ below folder)) := by
  have hbelow := h folder (List.mem_singleton_self folder) folder .refl remote
  rw [walk, filesIn]
  cases hitems : children client folder remote with
  | mk r remote' =>
      cases r with
      | error f => rfl
      | ok items =>
          rw [hitems] at hbelow
          simp only [hbelow items rfl, if_true]
          rfl

/-- One level: its folders are listed, and the next level is put behind those that are pending. -/
theorem walk_level (h : Charts below client front) (folders : Nat) (back : List String)
    (remote : σ) :
    walk client true (front.length + folders) (front ++ back) remote =
      andThen (inspect client front remote)
        (walk client true folders (back ++ front.flatMap below)) := by
  induction front generalizing back remote with
  | nil =>
      rw [List.length_nil, Nat.zero_add, List.nil_append, List.flatMap_nil, List.append_nil,
        inspect, andThen]
      obtain ⟨r, remote'⟩ := walk client true folders back remote
      cases r <;> rfl
  | cons folder rest ih =>
      have hfolder : Charts below client [folder] := h.of_subset (by simp)
      have hrest : Charts below client rest := h.of_subset (List.subset_cons_self folder rest)
      rw [List.length_cons, Nat.add_right_comm, List.cons_append, walk_cons hfolder,
        List.append_assoc, funext (ih hrest (back ++ below folder)), inspect, andThen_assoc,
        List.flatMap_cons, List.append_assoc]

/-- All levels: a walk is a pass over the folders in breadth-first order. -/
theorem walk_levels (h : Charts below client front) {depth : Nat}
    (hlast : level below front depth = []) {folders : Nat}
    (hfolders : (levels below front depth).length ≤ folders) (remote : σ) :
    walk client true folders front remote = inspect client (levels below front depth) remote := by
  induction depth generalizing front folders remote with
  | zero =>
      obtain rfl : front = [] := hlast
      rw [walk]
      rfl
  | succ depth ih =>
      rw [levels_succ, List.length_append] at hfolders
      rw [level_succ] at hlast
      obtain ⟨left, rfl⟩ := Nat.exists_eq_add_of_le (Nat.le_of_add_right_le hfolders)
      have hlevel := walk_level h left [] remote
      rw [List.append_nil, List.nil_append] at hlevel
      have hleft : (levels below (front.flatMap below) depth).length ≤ left :=
        Nat.le_of_add_le_add_left hfolders
      rw [hlevel, levels_succ, inspect_append, funext (ih h.flatMap hlast hleft)]

/-- A walk that comes to an end without a failure has seen the last level. -/
theorem level_of_walk (h : Charts below client pending) {folders : Nat} {remote remote' : σ}
    {files : List File} (hwalk : walk client true folders pending remote = (.ok files, remote')) :
    ∃ depth, level below pending depth = [] := by
  induction folders generalizing pending remote files with
  | zero =>
      cases pending with
      | nil => exact ⟨0, rfl⟩
      | cons folder pending =>
          rw [walk] at hwalk
          cases hwalk
  | succ folders ih =>
      cases pending with
      | nil => exact ⟨0, rfl⟩
      | cons folder pending =>
          have hfolder : Charts below client [folder] := h.of_subset (by simp)
          have hpending : Charts below client (pending ++ below folder) := by
            have hbelow := hfolder.flatMap
            rw [List.flatMap_singleton] at hbelow
            exact (h.of_subset (List.subset_cons_self folder pending)).append hbelow
          rw [walk_cons hfolder] at hwalk
          obtain ⟨_, middle, rest, _, hrest, _⟩ := andThen_eq_ok hwalk
          obtain ⟨depth, hlast⟩ := ih hpending hrest
          rw [level_append, List.append_eq_nil_iff] at hlast
          refine ⟨depth + 1, ?_⟩
          rw [← List.singleton_append, level_append, level_succ, List.flatMap_singleton, hlast.2,
            level_of_le hlast.1 (Nat.le_succ depth)]
          rfl

end

end Drive

end Intake
