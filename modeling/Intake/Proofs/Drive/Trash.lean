import Intake.Proofs.Document.Agreement
import Intake.Proofs.Drive.Enumeration
import Intake.Proofs.Run.Notes
import Intake.Proofs.Run.Room

/-!
# Items in the trash

Folders are listed without what is in the trash, and a file in the trash is not there when it is
probed. But the item to begin with is taken as it is: if it is a file, it becomes a document whether
or not it is in the trash. That is the one way in which a document can be enumerated that is not
there.
-/

namespace Intake.Drive

open Http (Client)

variable {σ : Type} {client : Client σ} {drive : String → Option File}

/-- Whether a service always tells of a drive as it is: of each of its items the same, with stamps
that can be read, and in folders nothing that is in the trash. -/
structure Steady (client : Client σ) (drive : String → Option File) : Prop where
  told : ∀ id f, drive id = some f → ∀ remote, (file? client id remote).1 = .ok (some f)
  readable : ∀ id f, drive id = some f → ∃ window, windowOf f.stamps = .ok window
  listed : ∀ folder name remote page, (pager client folder name remote).1 = .ok page →
    ∀ f ∈ page.items, ∃ g, drive f.id = some g ∧ g.trashed = false

theorem Steady.file? (h : Steady client drive) {id : String} {f : File} (hdrive : drive id = some f)
    (remote : σ) :
    Drive.file? client id remote = (.ok (some f), (Drive.file? client id remote).2) :=
  Prod.ext (h.told id f hdrive remote) rfl

/-- A document is there unless its item is in the trash. -/
theorem Steady.isThere (h : Steady client drive) {f g : File} (hdrive : drive f.id = some g)
    (settings : Settings) (remote : σ) :
    ((Document.ofSource settings (Item.source ⟨f, client⟩)).isThere remote).1 =
      .ok (!g.trashed) := by
  have hprobe : ((Item.source ⟨f, client⟩).probe remote).1 = .ok (Item.found (some g)) := by
    show (Item.probe ⟨f, client⟩ remote).1 = _
    rw [Item.probe, h.file? hdrive remote]
  obtain ⟨window, hwindow⟩ := h.readable _ _ hdrive
  cases htrashed : g.trashed with
  | true =>
      rw [Item.found, if_pos htrashed] at hprobe
      have hobserved : Document.observed .absent = .ok (.absent, .empty) := rfl
      exact Document.isThere_of_observed rfl hprobe hobserved
  | false =>
      rw [Item.found, htrashed] at hprobe
      have hobserved : Document.observed (.present g.stamps) = .ok (.present, window) := by
        rw [Document.observed, hwindow]
        rfl
      exact Document.isThere_of_observed rfl hprobe hobserved

/-- No file that is found in a folder is in the trash. -/
theorem Steady.filesOf (h : Steady client drive) {recursive : Bool} {folder : String} {remote : σ}
    {files : List File} (hfiles : (filesOf client recursive folder remote).1 = .ok files) :
    ∀ f ∈ files, ∃ g, drive f.id = some g ∧ g.trashed = false := by
  intro f hf
  obtain ⟨folder', remote', items, hitems, hmem⟩ := listed_of_walk hfiles f hf
  obtain ⟨name, remote'', page, hpage, hon⟩ := Pager.exists_page hitems f hmem
  exact h.listed folder' name remote'' page hpage f hon

namespace Volume

variable {v : Volume σ} {root : File} {remote : σ} {sources : List (Source σ)}

/-- Whether the item to begin with is a file that is wanted, but in the trash. -/
def beginsInTrash (v : Volume σ) (root : File) : Bool := v.wants root && root.trashed

theorem chosen_singleton (v : Volume σ) (f : File) :
    v.chosen [f] = if v.wants f then [f] else [] := by
  rw [chosen, List.filter_singleton]
  cases v.wants f <;> rfl

/-- Either the item to begin with is the only document, or all documents were listed. -/
theorem sources_cases (hsteady : Steady v.client drive) (hroot : drive v.config.root = some root)
    (h : (v.sources remote).1 = .ok sources) :
    (v.wants root = true ∧ sources = [Item.source ⟨root, v.client⟩]) ∨
      v.wants root = false ∧ ∀ s ∈ sources, ∃ f g, s = Item.source ⟨f, v.client⟩ ∧
        drive f.id = some g ∧ g.trashed = false := by
  have hfirst := hsteady.file? hroot remote
  cases hfolder : root.isFolder with
  | true =>
      have hwants : v.wants root = false := by rw [wants, hfolder]; rfl
      rw [sources_of_folder hfirst hfolder] at h
      cases hfiles : (Drive.filesOf v.client v.config.recursive root.id
          (Drive.file? v.client v.config.root remote).2).1 with
      | error f =>
          rw [hfiles] at h
          cases h
      | ok files =>
          rw [hfiles] at h
          cases h
          refine Or.inr ⟨hwants, fun s hs => ?_⟩
          obtain ⟨f, hf, rfl⟩ := List.mem_map.mp hs
          obtain ⟨g, hdrive, htrashed⟩ := hsteady.filesOf hfiles f (mem_of_mem_chosen hf).1
          exact ⟨f, g, rfl, hdrive, htrashed⟩
  | false =>
      rw [sources_of_file hfirst hfolder, chosen_singleton] at h
      cases h
      cases hwants : v.wants root with
      | true => exact Or.inl ⟨rfl, rfl⟩
      | false => exact Or.inr ⟨rfl, fun s hs => (List.not_mem_nil hs).elim⟩

/-- Each document is for an item of the drive, and is there unless this is in the trash. -/
theorem source_of_steady (hsteady : Steady v.client drive)
    (hroot : drive v.config.root = some root) (hself : drive root.id = some root)
    (h : (v.sources remote).1 = .ok sources) {s : Source σ} (hs : s ∈ sources) :
    ∃ f, drive s.locator = some f ∧ (v.beginsInTrash root = false → f.trashed = false) ∧
      ∀ remote', ((Document.ofSource v.settings s).isThere remote').1 = .ok (!f.trashed) := by
  rcases sources_cases hsteady hroot h with ⟨hwants, rfl⟩ | ⟨_, hlisted⟩
  · obtain rfl := List.mem_singleton.mp hs
    refine ⟨root, hself, fun hbegins => ?_, hsteady.isThere hself v.settings⟩
    rwa [beginsInTrash, hwants, Bool.true_and] at hbegins
  · obtain ⟨f, g, rfl, hdrive, htrashed⟩ := hlisted s hs
    exact ⟨g, hdrive, fun _ => htrashed, hsteady.isThere hdrive v.settings⟩

/-- **What is enumerated is there, unless it is the first item.** Let the service always tell of a
drive as it is. Then every document that is enumerated answers the question whether it is there, and
is there exactly if its item is not in the trash. All documents are there exactly if the item to
begin with is not a wanted file in the trash; and if it is not, a run asks only for items that are
not in the trash. -/
theorem enumerated_is_there (hsteady : Steady v.client drive)
    (hroot : drive v.config.root = some root) (hself : drive root.id = some root) :
    (∀ remote sources, (v.sources remote).1 = .ok sources →
      (∀ s ∈ sources, ∃ f, drive s.locator = some f ∧
        ∀ remote', ((Document.ofSource v.settings s).isThere remote').1 = .ok (!f.trashed)) ∧
      ((∀ s ∈ sources, ∀ remote',
          ((Document.ofSource v.settings s).isThere remote').1 = .ok true) ↔
        v.beginsInTrash root = false)) ∧
    (v.beginsInTrash root = false → ∀ processor conditions schedule w,
      ∀ r ∈ v.connector.asked processor conditions schedule w,
        ∃ f, drive r.source.locator = some f ∧ f.trashed = false) := by
  refine ⟨fun remote sources hsources => ⟨fun s hs => ?_, fun hthere => ?_, fun hbegins s hs => ?_⟩,
    fun hbegins processor conditions schedule w r hr => ?_⟩
  · obtain ⟨f, hdrive, _, hanswer⟩ := source_of_steady hsteady hroot hself hsources hs
    exact ⟨f, hdrive, hanswer⟩
  · rcases sources_cases hsteady hroot hsources with ⟨hwants, rfl⟩ | ⟨hwants, _⟩
    · have hfirst := hthere _ (List.mem_singleton_self _) remote
      rw [hsteady.isThere hself] at hfirst
      rw [beginsInTrash, hwants, Bool.true_and]
      simpa using hfirst
    · rw [beginsInTrash, hwants, Bool.false_and]
  · obtain ⟨f, _, htrashed, hanswer⟩ := source_of_steady hsteady hroot hself hsources hs
    rw [htrashed hbegins] at hanswer
    exact hanswer
  · obtain ⟨d, hd, hsource⟩ := v.connector.asked_enumerated processor conditions schedule w r hr
    obtain ⟨sources, hsources, s, hs, rfl⟩ := Connector.exists_source hd
    obtain ⟨f, hdrive, htrashed, _⟩ := source_of_steady hsteady hroot hself hsources hs
    exact ⟨f, by rw [hsource]; exact hdrive, htrashed hbegins⟩

end Volume

/-! ## A file that was thrown away -/

namespace Archive

/-- The items of which the archive tells, by their ids. -/
def shelf (id : String) : Option File := files.find? (·.id = id)

/-- Only items that are not in the trash are on pages. -/
theorem pageFor_kept (query : List (String × String)) :
    (pageFor query).2 ≠ some "" ∧
      ∀ f ∈ (pageFor query).1, (shelf f.id).map (·.trashed) = some false := by
  have hall : ∀ page ∈ known, (pageOf page.1 page.2).2 ≠ some "" ∧
      ∀ f ∈ (pageOf page.1 page.2).1, (shelf f.id).map (·.trashed) = some false := by decide
  rw [pageFor]
  cases hfind : known.find? fun page => query = (inquiry page.1).query page.2 with
  | some page => exact hall page (List.mem_of_find?_eq_some hfind)
  | none => exact ⟨(Option.some_ne_none "").symm, List.forall_mem_nil _⟩

theorem steady : Steady (Archive.client (σ := Unit) some) shelf where
  told id f hshelf remote := by
    obtain rfl : f.id = id := by simpa using List.find?_some hshelf
    exact congrArg Prod.fst (get_file (List.mem_of_find?_eq_some hshelf) rfl)
  readable id f hshelf := by
    have hstamps : ∀ f ∈ files, f.stamps = [] := by decide
    rw [hstamps f (List.mem_of_find?_eq_some hshelf)]
    exact ⟨_, rfl⟩
  listed folder name remote page hpage := by
    obtain ⟨hnext, hkept⟩ := pageFor_kept ((inquiry folder).query name)
    have hread : (pager (Archive.client some) folder name remote).1 =
        .ok ⟨(pageFor ((inquiry folder).query name)).1,
          (pageFor ((inquiry folder).query name)).2⟩ := by
      show (ask (Archive.client some) folder "/files" ((inquiry folder).query name) readPage
        remote).1 = _
      rw [ask, get_files rfl]
      simp only [readPage_pageJson _ hnext]
      rfl
    obtain rfl := Except.ok.inj (hread.symm.trans hpage)
    exact fun f hf => Option.map_eq_some_iff.mp (hkept f hf)

/-- The archive from an item on, for someone who has patience. -/
def volumeFrom (root : String) : Volume Unit := volume root ((Archive.client some).patient 9)

theorem steady_volumeFrom (root : String) : Steady (volumeFrom root).client shelf :=
  ⟨steady.told, steady.readable, steady.listed⟩

theorem enumerated_is_there_archive :
    ∃ sources, ((volumeFrom "R").sources ()).1 = .ok sources ∧
      sources.map (·.locator) = ["a", "c"] ∧
      (∀ s ∈ sources, ∀ remote',
        ((Document.ofSource (volumeFrom "R").settings s).isThere remote').1 = .ok true) ∧
      ∀ processor conditions schedule w,
        ∀ r ∈ (volumeFrom "R").connector.asked processor conditions schedule w,
        ∃ f, shelf r.source.locator = some f ∧ f.trashed = false := by
  have hpasses : holdings.Passes (Archive.client some) ["R", "S", "T", "T"] () wholeTour none () :=
    passes_whole rfl rfl rfl rfl rfl
  have hroot : file? (volumeFrom "R").client "R" () = (.ok (some root), ()) :=
    @get_file Unit some () () root List.mem_cons_self rfl
  have hsources := Volume.sources_of_passes (v := volumeFrom "R") hroot
    (fun _ => toldTo.patient 9) inLevels ⟨by decide, by decide⟩ (hpasses.patient 9)
  have hbegins : (volumeFrom "R").beginsInTrash root = false := by decide
  obtain ⟨hthere, hasked⟩ := Volume.enumerated_is_there (v := volumeFrom "R")
    (steady_volumeFrom "R") (show shelf "R" = some root from rfl) rfl
  refine ⟨_, hsources, ?_, (hthere () _ hsources).2.mpr hbegins, hasked hbegins⟩
  rw [volumeFrom, chosen_found]
  rfl

/-- The document of the file in the trash. -/
def lostDocument : Document Unit :=
  .ofSource (volumeFrom "x").settings (Item.source ⟨lost, (volumeFrom "x").client⟩)

theorem room_lost : Document.Room lostDocument ⟨.empty, []⟩ where
  current := by decide
  stagedName := ⟨by decide, by decide⟩
  outputName := ⟨by decide, by decide⟩
  directories := ⟨_, _, rfl, rfl, by decide, by decide⟩

theorem download_lost :
    lostDocument.source.download () = (.ok ⟨[], .ok lost.toJson.pretty.toUTF8⟩, ()) := by
  have hcontent : content (volumeFrom "x").client lost () =
      (.ok lost.toJson.pretty.toUTF8, ()) := by
    have hget := @get_item Unit some () () [("alt", "media"), ("supportsAllDrives", "true")] lost
      (by decide) rfl
    show ask (Archive.client some) lost.id (filePath lost.id)
      [("alt", "media"), ("supportsAllDrives", "true")] readBytes () = _
    rw [ask, hget]
    rfl
  show Item.download ⟨lost, (volumeFrom "x").client⟩ () = _
  rw [Item.download, hcontent]
  rfl

/-- A way to work that makes nothing of any content. -/
def noElements : Plan := ⟨fun _ _ _ => .elements [], .steady .epoch, false⟩

theorem work_lost :
    (lostDocument.work noElements ⟨⟨.empty, []⟩, ()⟩).1 = .finished (.processed "x" 0) := by
  have hprocess (staged : Files.FileSystem) (_ : staged.read lostDocument.stagingPath =
      .ok lost.toJson.pretty.toUTF8) :
      noElements.processor staged lostDocument.stagingPath lostDocument.locator =
        .elements [] := rfl
  have hworked := Document.work_of_room (w := ⟨⟨.empty, []⟩, ()⟩) rfl room_lost (by decide)
    (by decide) rfl download_lost rfl hprocess
  exact hworked.1

end Archive

/-- A file in the trash is enumerated although it is not there, and it is processed. -/
theorem enumerated_in_trash :
    Steady (Archive.volumeFrom "x").client Archive.shelf ∧
      Archive.shelf "x" = some Archive.lost ∧ Archive.lost.trashed = true ∧
      ∃ s, ((Archive.volumeFrom "x").sources ()).1 = .ok [s] ∧
        ((Document.ofSource (Archive.volumeFrom "x").settings s).isThere ()).1 = .ok false ∧
        ((Document.ofSource (Archive.volumeFrom "x").settings s).work Archive.noElements
          ⟨⟨.empty, []⟩, ()⟩).1 = .finished (.processed "x" 0) := by
  have hroot : file? (Archive.volumeFrom "x").client "x" () = (.ok (some Archive.lost), ()) :=
    @Archive.get_file Unit some () () Archive.lost (by decide) rfl
  have hsources : ((Archive.volumeFrom "x").sources ()).1 =
      .ok [Item.source ⟨Archive.lost, (Archive.volumeFrom "x").client⟩] :=
    Volume.sources_of_file hroot (by decide)
  have hsteady := Archive.steady_volumeFrom "x"
  have hshelf : Archive.shelf "x" = some Archive.lost := rfl
  refine ⟨hsteady, hshelf, rfl, _, hsources, hsteady.isThere (f := Archive.lost) hshelf _ (), ?_⟩
  exact Archive.work_lost

end Intake.Drive
