import Intake.Drive.Volume
import Intake.Proofs.Drive.Holdings
import Intake.Proofs.Drive.Pages
import Intake.Proofs.Http.Addresses
import Intake.Proofs.Run.Distinct

/-!
# What is enumerated of a drive

What can be found on a drive are the items of its folders in breadth-first order, or of its first
folder only, or the one file that it is. Of the files among them that are wanted, the first one with
each id becomes a document. Where the listing of a folder fails there are no documents, but the
fault of that folder.
-/

namespace Intake.Drive

open Http (Client IsWord Network Serves replyOf)

variable {σ : Type}

namespace Volume

/-- The same volume with the patience for another number of pages and folders. -/
def patient (v : Volume σ) (patience : Nat) : Volume σ :=
  { v with client := v.client.patient patience }

/-- The folders that are listed, where `order` has all that are below the root. -/
def listed (v : Volume σ) (root : File) (order : List String) : List String :=
  if root.isFolder then if v.config.recursive then order else [root.id] else []

/-- All items that can be found. -/
def found (v : Volume σ) (h : Holdings) (root : File) (order : List String) : List File :=
  if root.isFolder then (v.listed root order).flatMap h.items else [root]

/-- Whether an item that is found is wanted as a document. -/
def wants (v : Volume σ) (f : File) : Bool :=
  !f.isFolder && f.isDownloadable && v.config.accepts f

/-- The files that become documents: of those that are wanted, the first one with each id. -/
def chosen (v : Volume σ) (files : List File) : List File :=
  Run.earliest (·.id) (files.filter v.wants)

variable {v : Volume σ} {h : Holdings} {root : File} {order : List String}
  {tour : Tour} {remote middle remote' : σ} {fault : Option (String × Outage)}

theorem wants_eq (v : Volume σ) (f : File) :
    v.wants f = (f.isDownloadable && v.config.accepts f) := by
  rw [wants, File.isDownloadable]
  cases f.isFolder <;> rfl

theorem wanted_eq_chosen (v : Volume σ) (files : List File) : v.wanted files = v.chosen files := by
  rw [wanted, Run.firsts_eq_earliest, chosen, ← funext v.wants_eq]

/-- A folder is never wanted, so it makes no difference that only files are passed on. -/
theorem chosen_filesAmong (v : Volume σ) (h : Holdings) (order : List String) :
    v.chosen (order.flatMap fun folder => filesAmong (h.items folder)) =
      v.chosen (order.flatMap h.items) := by
  have hwants : ∀ f, (v.wants f && !f.isFolder) = v.wants f := by
    intro f
    rw [wants]
    cases f.isFolder <;> simp
  rw [chosen, chosen, List.filter_flatMap, List.filter_flatMap]
  simp only [filesAmong, List.filter_filter, hwants]

theorem nodup_chosen (v : Volume σ) (files : List File) :
    ((v.chosen files).map (·.id)).Nodup := by
  rw [chosen, ← Run.firsts_eq_earliest]
  exact Run.nodup_firsts File.id _

/-- What is wanted becomes a document, or something before it with the same id does. -/
theorem exists_chosen {files : List File} {f : File} (hf : f ∈ files) (hwants : v.wants f = true) :
    ∃ f' ∈ v.chosen files, f'.id = f.id := by
  rw [chosen, ← Run.firsts_eq_earliest]
  exact List.mem_map.mp (Run.mem_firsts File.id (List.mem_filter.mpr ⟨hf, hwants⟩))

theorem mem_of_mem_chosen {files : List File} {f : File} (hf : f ∈ v.chosen files) :
    f ∈ files ∧ v.wants f = true := by
  rw [chosen, ← Run.firsts_eq_earliest] at hf
  exact List.mem_filter.mp (Run.firstsAfter_subset File.id [] _ hf)

/-! ## Candidates -/

/-- With enough patience the folders that are to be listed are passed over, one after the other. -/
theorem filesOf_listed (htold : h.ToldTo v.client root.id) (horder : InLevels h.below root.id order)
    (hpatience : order.length ≤ v.client.patience) (hfolder : root.isFolder = true) (remote : σ) :
    filesOf v.client v.config.recursive root.id remote =
      inspect v.client (v.listed root order) remote := by
  rw [listed, if_pos hfolder]
  cases hrecursive : v.config.recursive with
  | true => exact filesOf_eq_inspect htold.charts horder hpatience remote
  | false =>
      have hroot : root.id ∈ order := horder.mem_iff.mpr .refl
      exact filesOf_flat (Nat.lt_of_lt_of_le (List.length_pos_of_mem hroot) hpatience) remote

theorem listed_subset (horder : InLevels h.below root.id order) : v.listed root order ⊆ order := by
  have hroot : root.id ∈ order := horder.mem_iff.mpr .refl
  rw [listed]
  split
  · split
    · exact List.Subset.refl order
    · simpa using hroot
  · exact List.nil_subset order

theorem sources_eq (v : Volume σ) (remote : σ) :
    (v.sources remote).1 = (v.candidates remote).1.map fun files =>
      (v.chosen files).map fun f => Item.source ⟨f, v.client⟩ := by
  simp only [sources, wanted_eq_chosen]
  obtain ⟨r, remote'⟩ := v.candidates remote
  cases r <;> rfl

/-- A drive that is a file is its own only candidate. -/
theorem sources_of_file
    (hroot : file? v.client v.config.root remote = (.ok (some root), middle))
    (hfile : root.isFolder = false) :
    (v.sources remote).1 =
      .ok ((v.chosen [root]).map fun f => Item.source ⟨f, v.client⟩) := by
  rw [sources_eq, candidates, hroot]
  simp only [hfile, Bool.false_eq_true, if_false]
  rfl

/-- The candidates of a folder are what is found in it. -/
theorem sources_of_folder
    (hroot : file? v.client v.config.root remote = (.ok (some root), middle))
    (hfolder : root.isFolder = true) :
    (v.sources remote).1 = (filesOf v.client v.config.recursive root.id middle).1.map fun files =>
      (v.chosen files).map fun f => Item.source ⟨f, v.client⟩ := by
  rw [sources_eq, candidates, hroot]
  simp only [hfolder, if_true]

/-- The documents for these items, or the fault of the folder that failed. -/
def outcome (v : Volume σ) (files : List File) :
    Option (String × Outage) → Except Fault (List (Source σ))
  | none => .ok ((v.chosen files).map fun f => Item.source ⟨f, v.client⟩)
  | some (folder, outage) => .error (.unavailable folder outage)

/-- What is found where the folders are told one after the other. -/
theorem sources_of_passes (hroot : file? v.client v.config.root remote = (.ok (some root), middle))
    (htold : root.isFolder = true → h.ToldTo v.client root.id)
    (horder : InLevels h.below root.id order) (henough : Enough order tour v.client.patience)
    (hpasses : h.Passes v.client (v.listed root order) middle tour fault remote') :
    (v.sources remote).1 = v.outcome (v.found h root order) fault := by
  cases hfolder : root.isFolder with
  | false =>
      rw [listed, hfolder] at hpasses
      cases hpasses
      rw [sources_of_file hroot hfolder, found, hfolder]
      rfl
  | true =>
      rw [sources_of_folder hroot hfolder,
        filesOf_listed (htold hfolder) horder henough.folders hfolder,
        hpasses.inspect henough.pages, found, if_pos hfolder]
      cases fault with
      | none => rw [Holdings.filesOver, Except.map, chosen_filesAmong, outcome]
      | some fault => rfl

/-- **Enumeration in breadth-first order.** Let the drive be a file, or a folder of which the
service tells all that is in it and below it or fails, in each state as it likes; and let there be
finitely many folders below it, none of them below itself. Then the folders below it are all in
breadth-first order, the folders that are to be listed are told one after the other, and whoever
has the patience for them and for the pages that are told finds the following. If no listing fails,
the documents are the wanted files among the items of the listed folders, in this order, the first
one with each id: no id is there twice, and none is missing. If a listing fails, there is only the
fault of its folder. -/
theorem enumeration_in_order
    (hroot : file? v.client v.config.root remote = (.ok (some root), middle))
    (htold : root.isFolder = true → h.ToldTo v.client root.id)
    (hfinite : {folder | Reaches h.below root.id folder}.Finite)
    (hacyclic : Acyclic h.below root.id) :
    ∃ order, InLevels h.below root.id order ∧
      (∀ folder, folder ∈ order ↔ Reaches h.below root.id folder) ∧
      ((v.chosen (v.found h root order)).map (·.id)).Nodup ∧
      (∀ f ∈ v.found h root order, v.wants f = true →
        ∃ f' ∈ v.chosen (v.found h root order), f'.id = f.id) ∧
      (∃ tour fault remote', h.Passes v.client (v.listed root order) middle tour fault remote') ∧
      ∀ tour patience, Enough order tour patience →
        (∀ remote', h.Passes v.client (v.listed root order) middle tour none remote' →
          ((v.patient patience).sources remote).1 =
            .ok ((v.chosen (v.found h root order)).map fun f =>
              Item.source ⟨f, v.client.patient patience⟩)) ∧
        ∀ folder outage remote',
          h.Passes v.client (v.listed root order) middle tour (some (folder, outage)) remote' →
            ((v.patient patience).sources remote).1 = .error (.unavailable folder outage) := by
  obtain ⟨order, horder⟩ := exists_inLevels hfinite hacyclic
  have hpassed : ∃ tour fault remote',
      h.Passes v.client (v.listed root order) middle tour fault remote' := by
    cases hfolder : root.isFolder with
    | false =>
        rw [listed, hfolder]
        exact ⟨[], none, middle, .nil⟩
    | true =>
        exact (htold hfolder).exists_passes
          (fun folder hlisted => horder.mem_iff.mp (listed_subset horder hlisted)) middle
  refine ⟨order, horder, fun _ => horder.mem_iff, nodup_chosen v _, fun f hf => exists_chosen hf,
    hpassed, fun tour patience henough => ?_⟩
  have hsources {fault : Option (String × Outage)} {remote' : σ}
      (hpasses : h.Passes v.client (v.listed root order) middle tour fault remote') :=
    @sources_of_passes σ (v.patient patience) h root order tour remote middle remote' fault hroot
      (fun hfolder => (htold hfolder).patient patience) horder henough (hpasses.patient patience)
  exact ⟨fun _ hpasses => hsources hpasses, fun _ _ _ hpasses => hsources hpasses⟩

end Volume

/-! ## A folder on two ways -/

namespace Archive

def plain (id name mimeType : String) : File := ⟨id, name, mimeType, none, none, false⟩

def root : File := plain "R" "archive" folderType

/-- The page before the last one of the folder `R`, with the name of the last one. -/
def firstPage : List File × String :=
  ([plain "a" "a.txt" "text/plain", plain "S" "s" folderType], "p2")

/-- The last page of a folder, which is its only one but for the folder `R`. -/
def lastPage (folder : String) : List File :=
  if folder = "R" then [plain "b" "b.pdf" "application/pdf", plain "T" "t" folderType]
  else if folder = "S" then [plain "a" "z.txt" "text/plain", plain "T" "t" folderType]
  else [plain "c" "c.txt" "text/plain", plain "f" "f.txt" "application/vnd.google-apps.form"]

/-- The folder `R` has the folders `S` and `T`, of which `S` has `T` again. The file `a` is in `R`
and, under another name, in `S`. -/
def holdings : Holdings where
  items folder := if folder = "R" then firstPage.1 ++ lastPage "R" else lastPage folder

/-- The last folder is listed twice, once for each way to it. -/
theorem inLevels : InLevels holdings.below "R" ["R", "S", "T", "T"] :=
  ⟨3, by decide, by decide⟩

/-- A file that was in the folder `R` and is in the trash. -/
def lost : File := { plain "x" "x.txt" "text/plain" with trashed := true }

/-- The items of which the service tells. -/
def files : List File := [root, plain "a" "a.txt" "text/plain", plain "S" "s" folderType,
  plain "b" "b.pdf" "application/pdf", plain "T" "t" folderType, plain "c" "c.txt" "text/plain",
  plain "f" "f.txt" "application/vnd.google-apps.form", lost]

/-- The pages that can be asked for: a folder, and the name of the page unless it is the first. -/
def known : List (String × Option String) :=
  [("R", none), ("R", some "p2"), ("S", none), ("T", none)]

/-- The items on a page of a folder, with the name of the next page if there is one. -/
def pageOf (folder : String) (name : Option String) : List File × Option String :=
  if folder = "R" ∧ name = none then (firstPage.1, some firstPage.2) else (lastPage folder, none)

/-- The page that is asked for, an empty one if it is not known. -/
def pageFor (query : List (String × String)) : List File × Option String :=
  match known.find? fun page => query = (inquiry page.1).query page.2 with
  | some (folder, name) => pageOf folder name
  | none => ([], none)

/-- What is told about a file, or else about the page of a folder. -/
def told (segments : List String) (query : List (String × String)) : Json :=
  match files.find? fun f => segments = ["files", f.id] with
  | some f => f.toJson
  | none => pageJson (pageFor query).1 (pageFor query).2

/-- The service of the archive, which fails in the states that have no next one. -/
def network (next : σ → Option σ) : Network σ := fun request s =>
  match next s with
  | some s' => (some (replyOf (told request.url.segments request.url.pairs)), s')
  | none => (some ⟨.serverError, none⟩, s)

def client (next : σ → Option σ) : Client σ := ⟨"http://s", "t", network next, 1⟩

section

variable {next : σ → Option σ} {s middle s' : σ} {folder path : String}
  {query : List (String × String)}

theorem fits_authorization (next : σ → Option σ) :
    Client.fitsHeader (client next).authorization = true := by
  show Client.fitsHeader "Bearer t" = true
  rw [Client.fitsHeader_eq]
  decide

/-- A path of words can be asked for, and the request tells them and what was asked with. -/
theorem exists_request (next : σ → Option σ) {words : List (List Char)} (hne : words ≠ [])
    (hwords : ∀ w ∈ words, IsWord w) (hpath : path.toList = '/' :: ['/'].intercalate words)
    (query : List (String × String)) :
    ∃ request, (client next).request? path query = some request ∧
      request.url.segments = words.map String.ofList ∧ request.url.pairs = query := by
  have hplain : Http.Url.Plain ['s'] words := ⟨List.cons_ne_nil 's' [],
    List.forall_mem_singleton.mpr rfl, List.forall_mem_singleton.mpr rfl, hne, hwords⟩
  have hbase : (client next).baseUrl.toList = ['h', 't', 't', 'p', ':', '/', '/', 's'] := by
    show "http://s".toList = _
    decide
  exact Client.exists_request (fits_authorization next) hplain hbase hpath query

theorem get_told {words : List (List Char)} (hne : words ≠ []) (hwords : ∀ w ∈ words, IsWord w)
    (hpath : path.toList = '/' :: ['/'].intercalate words) (hnext : next s = some s') :
    (client next).get path query s =
      (.ok (replyOf (told (words.map String.ofList) query)), s') := by
  obtain ⟨request, hrequest, hsegments, hpairs⟩ := exists_request next hne hwords hpath query
  have hreply : (client next).network request s =
      (some (replyOf (told (words.map String.ofList) query)), s') := by
    show network next request s = _
    rw [network, hnext, hsegments, hpairs]
  rw [Client.get, hrequest]
  simp only [hreply]

theorem isWord_files : ∀ w ∈ ["files".toList], IsWord w :=
  List.forall_mem_singleton.mpr (List.all_eq_true.mp (by decide))

theorem get_files (hnext : next s = some s') :
    (client next).get "/files" query s =
      (.ok (replyOf (pageJson (pageFor query).1 (pageFor query).2)), s') := by
  have hnone : files.find? (fun f => ["files"] = ["files", f.id]) = none := by decide
  have hget := @get_told σ next s s' "/files" query _ (List.cons_ne_nil _ _) isWord_files rfl hnext
  rwa [List.map_singleton, String.ofList_toList, told, hnone] at hget

/-- Folders can be asked for, whatever the network is. -/
theorem exists_files_request (query : List (String × String)) :
    ∃ request, (client next).request? "/files" query = some request := by
  obtain ⟨request, hrequest, _⟩ :=
    @exists_request σ "/files" next _ (List.cons_ne_nil _ _) isWord_files rfl query
  exact ⟨request, hrequest⟩

theorem get_files_failed (hnext : next s = none) :
    (client next).get "/files" query s = (.ok ⟨.serverError, none⟩, s) := by
  obtain ⟨request, hrequest⟩ := @exists_files_request σ next query
  have hreply : (client next).network request s = (some ⟨.serverError, none⟩, s) := by
    show network next request s = _
    rw [network, hnext]
  rw [Client.get, hrequest]
  simp only [hreply]

theorem get_page {name : Option String} (hknown : (folder, name) ∈ known)
    (hnext : next s = some s') :
    (client next).get "/files" ((inquiry folder).query name) s =
      (.ok (replyOf (pageJson (pageOf folder name).1 (pageOf folder name).2)), s') := by
  have hall : ∀ page ∈ known, known.find? (page = ·) = some page := by decide
  rw [get_files hnext, pageFor]
  simp only [query_eq_iff]
  rw [hall _ hknown]

/-- Whatever is asked about an item, the answer tells of it. -/
theorem get_item {f : File} (hf : f ∈ files) (hnext : next s = some s') :
    (client next).get (filePath f.id) query s = (.ok (replyOf f.toJson), s') := by
  have hall : ∀ f ∈ files, f.id.toList.all Char.isAlphanum = true ∧
      files.find? (fun f' => ["files", f.id] = ["files", f'.id]) = some f := by decide
  obtain ⟨hword, hfound⟩ := hall f hf
  have hwords : ∀ w ∈ ["files".toList, f.id.toList], IsWord w :=
    List.forall_mem_cons.mpr ⟨isWord_files _ (List.mem_singleton_self _),
      List.forall_mem_singleton.mpr (List.all_eq_true.mp hword)⟩
  have hpath : (filePath f.id).toList = '/' :: ['/'].intercalate ["files".toList, f.id.toList] := by
    have hfront : "/files/".toList = '/' :: ("files".toList ++ ['/']) := by decide
    rw [filePath, String.toList_append, hfront, List.intercalate_cons_cons,
      List.intercalate_singleton]
    rfl
  have hget := @get_told σ next s s' _ query _ (List.cons_ne_nil _ _) hwords hpath hnext
  rwa [List.map_cons, List.map_singleton, String.ofList_toList, String.ofList_toList, told,
    hfound] at hget

theorem get_file {f : File} (hf : f ∈ files) (hnext : next s = some s') :
    file? (client next) f.id s = (.ok (some f), s') := by
  rw [file?, ask, get_item hf hnext]
  simp only [readFile?_replyOf]
  rfl

/-! The two pages of the root, and the single page of each other folder. -/

theorem tells_root (hnext : next s = some middle) (hlast : next middle = some s') :
    holdings.Tells (client next) "R" s [firstPage] none s' :=
  .whole (.more (get_page (by decide) hnext) (means_more _ (by decide))
    (.last (get_page (by decide) hlast) (means_last _))) rfl

theorem tells_other (hfolder : folder = "S" ∨ folder = "T") (hnext : next s = some s') :
    holdings.Tells (client next) folder s [] none s' := by
  rcases hfolder with rfl | rfl
  · exact .whole (.last (get_page (by decide) hnext) (means_last _)) rfl
  · exact .whole (.last (get_page (by decide) hnext) (means_last _)) rfl

theorem tells_failure (hnext : next s = none) :
    holdings.Tells (client next) folder s [] (some (.refused "Drive" .serverError)) s :=
  .part (.failed (get_files_failed hnext) (.refused rfl))

theorem tells_half (hnext : next s = some middle) (hlast : next middle = none) :
    holdings.Tells (client next) "R" s [firstPage] (some (.refused "Drive" .serverError))
      middle :=
  .part (.more (get_page (by decide) hnext) (means_more _ (by decide))
    (.failed (get_files_failed hlast) (.refused rfl)))

/-- The tour through all of the archive. -/
def wholeTour : Tour :=
  [("R", [firstPage]), ("S", []), ("T", []), ("T", [])]

theorem passes_whole {s₁ s₂ s₃ s₄ : σ} (h₁ : next s = some s₁) (h₂ : next s₁ = some s₂)
    (h₃ : next s₂ = some s₃) (h₄ : next s₃ = some s₄) (h₅ : next s₄ = some s') :
    holdings.Passes (client next) ["R", "S", "T", "T"] s wholeTour none s' :=
  .cons (tells_root h₁ h₂) (.cons (tells_other (Or.inl rfl) h₃)
    (.cons (tells_other (Or.inr rfl) h₄) (.cons (tells_other (Or.inr rfl) h₅) .nil)))

theorem enough {patience : Nat} {tour : Tour} (hle : 4 ≤ patience)
    (hpages : ∀ visit ∈ tour, visit.2.length < 4) : Enough ["R", "S", "T", "T"] tour patience :=
  ⟨hle, fun visit hvisit => Nat.lt_of_lt_of_le (hpages visit hvisit) hle⟩

theorem mem_folders (hreach : Reaches holdings.below "R" folder) :
    folder = "R" ∨ folder = "S" ∨ folder = "T" := by
  have hmem := inLevels.mem_iff.mpr hreach
  simpa using hmem

theorem toldTo : holdings.ToldTo (client next) "R" := by
  intro folder hreach s
  cases hnext : next s with
  | none => exact ⟨_, _, _, tells_failure hnext⟩
  | some middle =>
      rcases mem_folders hreach with rfl | hother
      · cases hlast : next middle with
        | none => exact ⟨_, _, _, tells_half hnext hlast⟩
        | some s' => exact ⟨_, _, _, tells_root hnext hlast⟩
      · exact ⟨_, _, _, tells_other hother hnext⟩

end

/-- An item of the archive with all that is below it, of which the texts are wanted. -/
def volume (root : String) (client : Client σ) : Volume σ :=
  ⟨.within ⟨"d"⟩ ⟨"o"⟩, ⟨root, "t", some ".txt", true, "http://s"⟩, client⟩

theorem chosen_found (client : Client σ) :
    (volume "R" client).chosen ((volume "R" client).found holdings root ["R", "S", "T", "T"]) =
      [plain "a" "a.txt" "text/plain", plain "c" "c.txt" "text/plain"] := by rfl

/-- A service that fails after a number of requests. -/
def countdown : Nat → Option Nat
  | 0 => none
  | n + 1 => some n

theorem enumeration_in_order_archive :
    (∀ patience, 4 ≤ patience →
      (((volume "R" (client countdown)).patient patience).sources 6).1 =
        .ok ([plain "a" "a.txt" "text/plain", plain "c" "c.txt" "text/plain"].map fun f =>
          Item.source ⟨f, (client countdown).patient patience⟩)) ∧
    ∀ patience, 4 ≤ patience →
      (((volume "R" (client countdown)).patient patience).sources 4).1 =
        .error (.unavailable "T" (.refused "Drive" .serverError)) := by
  have hroot (n : Nat) :
      file? (volume "R" (client countdown)).client "R" (n + 1) = (.ok (some root), n) :=
    @get_file Nat countdown _ _ root List.mem_cons_self rfl
  have hstops : holdings.Passes (client countdown) ["R", "S", "T", "T"] 3
      [("R", [firstPage]), ("S", []), ("T", [])] (some ("T", .refused "Drive" .serverError)) 0 :=
    .cons (tells_root rfl rfl) (.cons (tells_other (Or.inl rfl) rfl) (.stop (tells_failure rfl)))
  refine ⟨fun patience hle => ?_, fun patience hle => ?_⟩
  · obtain ⟨order, horder, _, _, _, _, hfound⟩ :=
      (volume "R" (client countdown)).enumeration_in_order (hroot 5) (fun _ => toldTo)
        inLevels.finite inLevels.acyclic
    obtain rfl := horder.unique inLevels
    have hsources := (hfound _ patience (enough hle (by decide))).1 0
      (passes_whole rfl rfl rfl rfl rfl)
    rw [chosen_found] at hsources
    exact hsources
  · obtain ⟨order, horder, _, _, _, _, hfound⟩ :=
      (volume "R" (client countdown)).enumeration_in_order (hroot 3) (fun _ => toldTo)
        inLevels.finite inLevels.acyclic
    obtain rfl := horder.unique inLevels
    exact (hfound _ patience (enough hle (by decide))).2 _ _ 0 hstops

end Archive

end Intake.Drive
