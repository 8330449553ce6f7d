import Intake.Proofs.Drive.Walks

/-!
# What a drive holds

The items of a folder come in pages that name their successors, and a last page; which pages these
are is up to the service, each time it is asked. It gives all of a folder, or fails at once or after
some pages. Whoever has enough patience gets all items of a folder, or the fault of its listing; and
in a walk this is so for one folder after the other, up to the first one that fails.
-/

namespace Intake.Drive

open Http (Client Serves)

variable {σ : Type}

/-- Pages of a folder that name their successors, each with the name of the next page. -/
abbrev Pages := List (List File × String)

/-- Folders in the order in which they are told, each with the pages that are told of it. -/
abbrev Tour := List (String × Pages)

/-- What the folders of a drive hold. -/
structure Holdings where
  items : String → List File

namespace Holdings

/-- The folders in a folder. -/
def below (h : Holdings) (folder : String) : List String := foldersAmong (h.items folder)

/-- What a client is told when it asks for a folder: pages that name their successors, and then the
rest of its items or the failure of the listing. -/
inductive Tells (h : Holdings) (client : Client σ) (folder : String) (remote : σ) :
    Pages → Option Outage → σ → Prop where
  | whole {pages : Pages} {last : List File} {remote' : σ} :
      Serves client (inquiry folder) Means none remote pages (.ok last) remote' →
        pages.flatMap Prod.fst ++ last = h.items folder →
          Tells h client folder remote pages none remote'
  | part {pages : Pages} {outage : Outage} {remote' : σ} :
      Serves client (inquiry folder) Means none remote pages (.error outage) remote' →
        Tells h client folder remote pages (some outage) remote'

/-- What a client is told when it asks for folders one after the other: all of them, or those up to
the first failure, which is the one of a folder. -/
inductive Passes (h : Holdings) (client : Client σ) :
    List String → σ → Tour → Option (String × Outage) → σ → Prop where
  | nil {remote : σ} : Passes h client [] remote [] none remote
  | cons {folder : String} {rest : List String} {remote middle remote' : σ} {pages : Pages}
      {tour : Tour} {fault : Option (String × Outage)} :
      h.Tells client folder remote pages none middle →
        Passes h client rest middle tour fault remote' →
          Passes h client (folder :: rest) remote ((folder, pages) :: tour) fault remote'
  | stop {folder : String} {rest : List String} {remote remote' : σ} {pages : Pages}
      {outage : Outage} :
      h.Tells client folder remote pages (some outage) remote' →
        Passes h client (folder :: rest) remote [(folder, pages)] (some (folder, outage)) remote'

/-- Whether a client is told of a folder and all that is below it, whenever it asks. -/
def ToldTo (h : Holdings) (client : Client σ) (root : String) : Prop :=
  ∀ folder, Reaches h.below root folder → ∀ remote, ∃ pages outage? remote',
    h.Tells client folder remote pages outage? remote'

/-- Whether a client is always told all of a folder and of what is below it. -/
def OpenTo (h : Holdings) (client : Client σ) (root : String) : Prop :=
  ∀ folder, Reaches h.below root folder → ∀ remote, ∃ pages remote',
    h.Tells client folder remote pages none remote'

variable {h : Holdings} {client : Client σ} {root folder : String} {order : List String}
  {pages : Pages} {tour : Tour} {remote remote' : σ}

theorem OpenTo.toldTo (hopen : h.OpenTo client root) : h.ToldTo client root := by
  intro folder hreach remote
  obtain ⟨pages, remote', htells⟩ := hopen folder hreach remote
  exact ⟨pages, none, remote', htells⟩

/-! ## Folders as they are listed -/

/-- The items of a folder, or the fault of its listing. -/
def listing (h : Holdings) (folder : String) : Option Outage → Except Fault (List File)
  | none => .ok (h.items folder)
  | some outage => .error (.unavailable folder outage)

/-- The files of folders, or the fault of the one that failed. -/
def filesOver (h : Holdings) (order : List String) :
    Option (String × Outage) → Except Fault (List File)
  | none => .ok (order.flatMap fun folder => filesAmong (h.items folder))
  | some (folder, outage) => .error (.unavailable folder outage)

/-- Who has the patience for all pages of a folder lists it as it is told. -/
theorem Tells.gather {outage? : Option Outage}
    (htells : h.Tells client folder remote pages outage? remote') {patience : Nat}
    (hpages : pages.length < patience) :
    ((inquiry folder).pager client readPage folder).gather patience none remote =
      (h.listing folder outage?, remote') := by
  have hread : ∀ reply turn, Means reply turn → readPage reply = turn.page :=
    fun _ _ => readPage_of_means
  cases htells with
  | whole hserves hitems =>
      rw [hserves.gather hread hpages, listing, ← hitems]
      rfl
  | part hserves => exact hserves.gather hread hpages

theorem Tells.children {outage? : Option Outage}
    (htells : h.Tells client folder remote pages outage? remote')
    (hpages : pages.length < client.patience) :
    Drive.children client folder remote = (h.listing folder outage?, remote') :=
  htells.gather hpages

theorem Tells.patient {outage? : Option Outage}
    (htells : h.Tells client folder remote pages outage? remote') (patience : Nat) :
    h.Tells (client.patient patience) folder remote pages outage? remote' := by
  cases htells with
  | whole hserves hitems => exact .whole (hserves.patient patience) hitems
  | part hserves => exact .part (hserves.patient patience)

theorem ToldTo.patient (htold : h.ToldTo client root) (patience : Nat) :
    h.ToldTo (client.patient patience) root := by
  intro folder hreach remote
  obtain ⟨pages, outage?, remote', htells⟩ := htold folder hreach remote
  exact ⟨pages, outage?, remote', htells.patient patience⟩

/-- With any patience, the folders in what could be listed are those below. -/
theorem ToldTo.charts (htold : h.ToldTo client root) : Charts h.below client [root] := by
  intro root' hroot folder hreach remote items hitems
  obtain rfl := List.mem_singleton.mp hroot
  obtain ⟨pages, outage?, remote', htells⟩ := htold folder hreach remote
  have hmore := Pager.gather_of_le (Prod.ext hitems rfl) (by simp)
    (Nat.le_max_left client.patience (pages.length + 1))
  have hlisted := htells.gather (Nat.lt_of_succ_le (Nat.le_max_right client.patience _))
  have hsame : h.listing folder outage? = .ok items :=
    congrArg Prod.fst (hlisted.symm.trans hmore)
  cases outage? with
  | none =>
      cases hsame
      rfl
  | some outage => cases hsame

/-! ## Folders one after the other -/

theorem Passes.patient {fault : Option (String × Outage)}
    (hpasses : h.Passes client order remote tour fault remote') (patience : Nat) :
    h.Passes (client.patient patience) order remote tour fault remote' := by
  induction hpasses with
  | nil => exact .nil
  | cons htells _ ih => exact .cons (htells.patient patience) ih
  | stop htells => exact .stop (htells.patient patience)

/-- Whoever is told of all folders gets through them or to a failure. -/
theorem ToldTo.exists_passes (htold : h.ToldTo client root)
    (hreach : ∀ folder ∈ order, Reaches h.below root folder) (remote : σ) :
    ∃ tour fault remote', h.Passes client order remote tour fault remote' := by
  induction order generalizing remote with
  | nil => exact ⟨[], none, remote, .nil⟩
  | cons folder rest ih =>
      obtain ⟨pages, outage?, middle, htells⟩ :=
        htold folder (hreach folder List.mem_cons_self) remote
      cases outage? with
      | some outage => exact ⟨_, _, middle, .stop htells⟩
      | none =>
          obtain ⟨tour, fault, remote', hrest⟩ :=
            ih (fun f hf => hreach f (List.mem_cons_of_mem folder hf)) middle
          exact ⟨_, fault, remote', .cons htells hrest⟩

theorem OpenTo.exists_passes (hopen : h.OpenTo client root)
    (hreach : ∀ folder ∈ order, Reaches h.below root folder) (remote : σ) :
    ∃ tour remote', h.Passes client order remote tour none remote' := by
  induction order generalizing remote with
  | nil => exact ⟨[], remote, .nil⟩
  | cons folder rest ih =>
      obtain ⟨pages, middle, htells⟩ := hopen folder (hreach folder List.mem_cons_self) remote
      obtain ⟨tour, remote', hrest⟩ :=
        ih (fun f hf => hreach f (List.mem_cons_of_mem folder hf)) middle
      exact ⟨_, remote', .cons htells hrest⟩

/-- The files of folders that are told one after the other. -/
theorem Passes.inspect {fault : Option (String × Outage)}
    (hpasses : h.Passes client order remote tour fault remote')
    (hpages : ∀ visit ∈ tour, visit.2.length < client.patience) :
    Drive.inspect client order remote = (h.filesOver order fault, remote') := by
  induction hpasses with
  | nil => rfl
  | @cons folder rest remote middle remote' pages tour fault htells _ ih =>
      obtain ⟨hfirst, hlater⟩ := List.forall_mem_cons.mp hpages
      rw [Drive.inspect, filesIn, htells.children hfirst, listing, Except.map, andThen, ih hlater]
      cases fault with
      | none => rw [filesOver, filesOver, List.flatMap_cons]
      | some fault => rfl
  | stop htells =>
      rw [Drive.inspect, filesIn, htells.children (hpages _ List.mem_cons_self)]
      rfl

/-! ## Requests -/

/-- The requests of a tour, folder by folder: one for each page. -/
def requests (client : Client σ) (tour : Tour) :
    List (Option Http.Request) :=
  tour.flatMap fun visit => (inquiry visit.1).requests client none visit.2

theorem Tells.noted (htells : h.Tells client folder remote pages none remote')
    (log : List Http.Request) :
    ∃ asked, asked.map some = (inquiry folder).requests client none pages ∧
      h.Tells client.noted folder (remote, log) pages none (remote', log ++ asked) := by
  cases htells with
  | whole hserves hitems =>
      obtain ⟨asked, hasked, hnoted⟩ := hserves.noted log
      exact ⟨asked, hasked, .whole hnoted hitems⟩

theorem OpenTo.noted (hopen : h.OpenTo client root) : h.OpenTo client.noted root := by
  rintro folder hreach ⟨remote, log⟩
  obtain ⟨pages, remote', htells⟩ := hopen folder hreach remote
  obtain ⟨asked, _, hnoted⟩ := htells.noted log
  exact ⟨pages, _, hnoted⟩

/-- For folders that are told whole, each page of each folder is asked for once. -/
theorem Passes.noted (hpasses : h.Passes client order remote tour none remote')
    (log : List Http.Request) :
    ∃ asked, asked.map some = requests client tour ∧
      h.Passes client.noted order (remote, log) tour none (remote', log ++ asked) := by
  induction order generalizing remote tour log with
  | nil =>
      cases hpasses
      exact ⟨[], rfl, by rw [List.append_nil]; exact .nil⟩
  | cons folder rest ih =>
      cases hpasses with
      | cons htells hrest =>
          obtain ⟨asked, hasked, hfolder⟩ := htells.noted log
          obtain ⟨later, hlater, hpasses⟩ := ih hrest (log ++ asked)
          rw [List.append_assoc] at hpasses
          refine ⟨asked ++ later, ?_, .cons hfolder hpasses⟩
          rw [List.map_append, hasked, hlater, requests, requests, List.flatMap_cons]

end Holdings

/-! ## Enough patience -/

/-- There is a bound for finitely many numbers. -/
theorem exists_bound {α : Type} (f : α → Nat) (as : List α) : ∃ bound, ∀ a ∈ as, f a < bound := by
  induction as with
  | nil => exact ⟨0, fun a ha => by cases ha⟩
  | cons a rest ih =>
      obtain ⟨bound, hbound⟩ := ih
      refine ⟨max bound (f a + 1), List.forall_mem_cons.mpr ⟨by omega, ?_⟩⟩
      intro b hb
      exact Nat.lt_of_lt_of_le (hbound b hb) (Nat.le_max_left _ _)

/-- The patience that is enough for a walk over an order in which a tour is told: for each folder,
and for the pages of each. -/
structure Enough (order : List String) (tour : Tour) (patience : Nat) : Prop where
  folders : order.length ≤ patience
  pages : ∀ visit ∈ tour, visit.2.length < patience

theorem exists_enough (order : List String) (tour : Tour) :
    ∃ patience, Enough order tour patience := by
  obtain ⟨bound, hbound⟩ := exists_bound (fun visit => visit.2.length) tour
  refine ⟨max order.length bound, Nat.le_max_left _ _, fun visit hvisit => ?_⟩
  exact Nat.lt_of_lt_of_le (hbound visit hvisit) (Nat.le_max_right _ _)

variable {h : Holdings} {client : Client σ} {root : String} {order : List String}

/-- With enough patience a walk through all folders is a pass over them in breadth-first order. -/
theorem filesOf_eq_inspect (hcharts : Charts h.below client [root])
    (horder : InLevels h.below root order) (hpatience : order.length ≤ client.patience)
    (remote : σ) : filesOf client true root remote = inspect client order remote := by
  obtain ⟨depth, hlast, rfl⟩ := horder
  exact walk_levels hcharts hlast hpatience remote

/-- A walk that enters no other folder lists only the first one. -/
theorem filesOf_flat (hpatience : 0 < client.patience) (remote : σ) :
    filesOf client false root remote = inspect client [root] remote := by
  obtain ⟨patience, hsucc⟩ := Nat.exists_eq_add_of_lt hpatience
  rw [filesOf, hsucc, walk, inspect, filesIn]
  cases children client root remote with
  | mk r remote' =>
      cases r with
      | error f => rfl
      | ok items => simp only [Bool.false_eq_true, if_false, walk]; rfl

end Intake.Drive
