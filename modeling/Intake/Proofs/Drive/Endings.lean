import Intake.Proofs.Drive.Enumeration

/-!
# Whether a walk comes to an end

A walk does not note which folders it has listed. So it comes to an end only where no folder is
below itself: otherwise it goes round and round, although there are only finitely many folders and
every request for one of them succeeds. Where it ends it has listed a folder once for each way to it
from the root, which is only once for all of them if they are a tree.
-/

namespace Intake.Drive

open Http (Client replyOf)

variable {σ : Type}

namespace Holdings

variable {h : Holdings} {client : Client σ} {root folder : String} {pending order : List String}
  {tour : Tour} {remote remote' : σ}

/-- The listing of a folder that can be read is given up, or it has all items. -/
theorem OpenTo.children_cases (hopen : h.OpenTo client root)
    (hreach : Reaches h.below root folder) (remote : σ) :
    (Drive.children client folder remote).1 = .error .unfinished ∨
      (Drive.children client folder remote).1 = .ok (h.items folder) := by
  by_cases hr : (Drive.children client folder remote).1 = .error .unfinished
  · exact Or.inl hr
  · obtain ⟨pages, remote', htells⟩ := hopen folder hreach remote
    have hmore := Pager.gather_of_le (Prod.ext rfl rfl) hr
      (Nat.le_max_left client.patience (pages.length + 1))
    have hlisted := htells.gather (Nat.lt_of_succ_le (Nat.le_max_right client.patience _))
    exact Or.inr (congrArg Prod.fst (hmore.symm.trans hlisted))

/-- A walk through folders that can be read is given up, or it succeeds. -/
theorem OpenTo.walk_cases (hopen : h.OpenTo client root)
    (hpending : ∀ folder ∈ pending, Reaches h.below root folder) (folders : Nat) (remote : σ) :
    (walk client true folders pending remote).1 = .error .unfinished ∨
      ∃ files, (walk client true folders pending remote).1 = .ok files := by
  induction folders generalizing pending remote with
  | zero =>
      cases pending with
      | nil => exact Or.inr ⟨[], rfl⟩
      | cons folder pending => exact Or.inl rfl
  | succ folders ih =>
      cases pending with
      | nil => exact Or.inr ⟨[], by rw [walk]⟩
      | cons folder pending =>
          obtain ⟨hfolder, hrest⟩ := List.forall_mem_cons.mp hpending
          have hnext : ∀ f ∈ pending ++ h.below folder, Reaches h.below root f :=
            List.forall_mem_append.mpr ⟨hrest, fun f hf => hfolder.tail hf⟩
          rw [walk]
          cases hlisted : Drive.children client folder remote with
          | mk r middle =>
              have hcases := hopen.children_cases hfolder remote
              rw [hlisted] at hcases
              rcases hcases with hr | hr
              · obtain rfl : r = _ := hr
                exact Or.inl rfl
              · obtain rfl : r = _ := hr
                have hwalk := ih hnext middle
                simp only [if_true]
                rw [← below]
                cases hrest : walk client true folders (pending ++ h.below folder) middle with
                | mk r last =>
                    rw [hrest] at hwalk
                    rcases hwalk with hr | ⟨files, hr⟩
                    · obtain rfl : r = _ := hr
                      exact Or.inl rfl
                    · obtain rfl : r = _ := hr
                      exact Or.inr ⟨_, rfl⟩

theorem OpenTo.patient (hopen : h.OpenTo client root) (patience : Nat) :
    h.OpenTo (client.patient patience) root := by
  intro folder hreach remote
  obtain ⟨pages, remote', htells⟩ := hopen folder hreach remote
  exact ⟨pages, remote', htells.patient patience⟩

/-- With enough patience the files of all folders are found, with the requests for the pages of each
folder in the order. -/
theorem OpenTo.filesOf_noted (hopen : h.OpenTo client root) (horder : InLevels h.below root order)
    (hpasses : h.Passes client order remote tour none remote')
    (henough : Enough order tour client.patience) :
    ∃ asked, filesOf client.noted true root (remote, []) =
        (.ok (order.flatMap fun folder => filesAmong (h.items folder)), remote', asked) ∧
      asked.map some = requests client tour := by
  obtain ⟨asked, hasked, hnoted⟩ := hpasses.noted []
  refine ⟨asked, ?_, hasked⟩
  rw [filesOf_eq_inspect hopen.noted.toldTo.charts horder henough.folders,
    hnoted.inspect henough.pages]
  rfl

/-- A walk through folders that can all be read comes to an end exactly if there are finitely many,
none of them below itself. -/
theorem OpenTo.ends_iff (hopen : h.OpenTo client root) (remote : σ) :
    (∃ patience, (filesOf (client.patient patience) true root remote).1 ≠ .error .unfinished) ↔
      {folder | Reaches h.below root folder}.Finite ∧ Acyclic h.below root := by
  constructor
  · rintro ⟨patience, hends⟩
    have hall := hopen.patient patience
    have hroot : ∀ folder ∈ [root], Reaches h.below root folder :=
      List.forall_mem_singleton.mpr .refl
    rcases hall.walk_cases hroot patience remote with hgiven | ⟨files, hfiles⟩
    · exact absurd hgiven hends
    · obtain ⟨depth, hlast⟩ := level_of_walk hall.toldTo.charts (Prod.ext hfiles rfl)
      have horder : InLevels h.below root (levels h.below [root] depth) := ⟨depth, hlast, rfl⟩
      exact ⟨horder.finite, horder.acyclic⟩
  · rintro ⟨hfinite, hacyclic⟩
    obtain ⟨order, horder⟩ := exists_inLevels hfinite hacyclic
    obtain ⟨tour, remote', hpasses⟩ := hopen.exists_passes (fun _ => horder.mem_iff.mp) remote
    obtain ⟨patience, henough⟩ := exists_enough order tour
    refine ⟨patience, ?_⟩
    rw [filesOf_eq_inspect (hopen.patient patience).toldTo.charts horder henough.folders,
      (hpasses.patient patience).inspect henough.pages]
    exact fun heq => by cases heq

end Holdings

/-- **Walks end only without cycles.** Let every request for a page of a folder below the root
succeed, in each state. A recursive walk is given up with any patience, unless there are finitely
many folders and none of them is below itself. If so, all of them are in breadth-first order and
are told one after the other, and with the patience for them and for the pages that are told the
walk finds all files, with one request for each page of each folder in this order and no other
request. A folder is there once for each way to it; no folder is there twice exactly if every folder
is in one place only. -/
theorem walk_ends_without_cycles {h : Holdings} {client : Client σ} {root : String}
    (hopen : h.OpenTo client root) :
    (∀ remote,
      (∃ patience, (filesOf (client.patient patience) true root remote).1 ≠ .error .unfinished) ↔
        {folder | Reaches h.below root folder}.Finite ∧ Acyclic h.below root) ∧
    ∀ order, InLevels h.below root order →
      order = root :: order.flatMap h.below ∧ (order.Nodup ↔ Treelike h.below root) ∧
        (∀ remote, ∃ tour remote', h.Passes client order remote tour none remote') ∧
        ∀ remote tour remote', h.Passes client order remote tour none remote' →
          ∀ patience, Enough order tour patience → ∃ asked,
            filesOf (client.patient patience).noted true root (remote, []) =
                (.ok (order.flatMap fun folder => filesAmong (h.items folder)), remote', asked) ∧
              asked.map some = Holdings.requests client tour := by
  refine ⟨hopen.ends_iff, fun order horder => ⟨horder.eq_cons, horder.nodup_iff, ?_, ?_⟩⟩
  · exact hopen.exists_passes fun _ => horder.mem_iff.mp
  · intro remote tour remote' hpasses patience henough
    exact (hopen.patient patience).filesOf_noted horder (hpasses.patient patience) henough

/-- The archive has no cycle, but its last folder is listed twice: it is in two places. -/
theorem walk_ends_without_cycles_archive :
    (∃ patience, (filesOf ((Archive.client some).patient patience) true "R" ()).1 ≠
        .error .unfinished) ∧
      ¬Treelike Archive.holdings.below "R" ∧
      ∀ patience, 4 ≤ patience → ∃ files asked,
        filesOf ((Archive.client some).patient patience).noted true "R" ((), []) =
            (.ok files, (), asked) ∧
          files.map (·.id) = ["a", "b", "a", "c", "f", "c", "f"] ∧
          asked.map some = [("R", none), ("R", some "p2"), ("S", none), ("T", none),
            ("T", none)].map fun (folder, name) =>
              (inquiry folder).request? (Archive.client (σ := Unit) some) name := by
  have hopen : Archive.holdings.OpenTo (Archive.client (σ := Unit) some) "R" := by
    intro folder hreach s
    rcases Archive.mem_folders hreach with rfl | hother
    · exact ⟨_, _, Archive.tells_root rfl rfl⟩
    · exact ⟨_, _, Archive.tells_other hother rfl⟩
  obtain ⟨hends, hlisted⟩ := walk_ends_without_cycles hopen
  obtain ⟨_, htree, _, hfound⟩ := hlisted _ Archive.inLevels
  refine ⟨(hends ()).mpr ⟨Archive.inLevels.finite, Archive.inLevels.acyclic⟩, ?_, ?_⟩
  · rw [← htree]
    decide
  · intro patience hle
    obtain ⟨asked, hfiles, hasked⟩ := hfound () _ () (Archive.passes_whole rfl rfl rfl rfl rfl)
      patience (Archive.enough hle (by decide))
    exact ⟨_, asked, hfiles, by decide, hasked⟩

/-! ## A folder in itself -/

namespace Loop

def holdings : Holdings where
  items _ := [Archive.plain "R" "r" folderType]

/-- A service that lists the same folder in every folder. -/
def client : Client Unit :=
  ⟨"http://s", "t", fun _ s => (some (replyOf (pageJson (holdings.items "R") none)), s), 1⟩

theorem mem_folders {folder : String} (h : Reaches holdings.below "R" folder) : folder = "R" := by
  induction h with
  | refl => rfl
  | tail _ hbelow _ => exact List.mem_singleton.mp hbelow

theorem openTo : holdings.OpenTo client "R" := by
  intro folder hreach _
  obtain rfl := mem_folders hreach
  have hsent : (client.request? "/files" ((inquiry "R").query none)).isSome = true := by
    rw [@Http.Client.request?_congr Unit client (Archive.client some) rfl rfl]
    exact Option.isSome_iff_exists.mpr (Archive.exists_files_request _)
  have hget : client.get "/files" ((inquiry "R").query none) () =
      (.ok (replyOf (pageJson (holdings.items "R") none)), ()) :=
    Http.Client.get_of_request hsent fun _ => rfl
  exact ⟨[], (), .whole (.last hget (means_last _)) rfl⟩

end Loop

/-- There is only one folder, and every request for it succeeds; but the walk never ends. -/
theorem walk_never_ends :
    {folder | Reaches Loop.holdings.below "R" folder}.Finite ∧
      Loop.holdings.OpenTo Loop.client "R" ∧
      ∀ patience, (filesOf (Loop.client.patient patience) true "R" ()).1 = .error .unfinished := by
  refine ⟨(Set.finite_singleton "R").subset fun _ h => Loop.mem_folders h, Loop.openTo, ?_⟩
  intro patience
  by_contra hends
  obtain ⟨_, hacyclic⟩ := (Loop.openTo.ends_iff ()).mp ⟨patience, hends⟩
  exact hacyclic "R" .refl (.single (List.mem_singleton_self "R"))

end Intake.Drive
