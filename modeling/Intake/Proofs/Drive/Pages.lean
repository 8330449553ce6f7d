import Intake.Proofs.Http.Listings
import Intake.Proofs.Json.Records

/-!
# Files and pages are read back

What a reply tells of a file, or of a page of files, is read from the reply as it was written; and
what is asked for, a folder and a page of it, is known from the query.
-/

namespace Intake.Drive

open Http (Reply replyOf)
open Json (Whole)
open Json.Decode

namespace File

theorem whole_toJson (f : File) : Whole f.toJson := by
  refine .object ?_
  simp only [List.forall_mem_cons]
  exact ⟨.string _, .string _, .string _, Json.whole_ofOption fun t _ => .string t,
    Json.whole_ofOption fun t _ => .string t, .bool _, List.forall_mem_nil _⟩

theorem optional_stamp (o : Option String) :
    optional string (Json.ofOption .string o) = .ok o :=
  optional_ofOption (fun _ _ => Json.noConfusion) fun s _ => string_string s

/-- A file is decoded from what it is encoded as. -/
theorem decode_toJson (f : File) : decode f.toJson = .ok f := by
  have hcreated := optional_stamp f.created
  have hmodified := optional_stamp f.modified
  have hentries : entriesOf shape f.toJson = .ok
      [("id", .string f.id), ("name", .string f.name), ("mimeType", .string f.mimeType),
        ("createdTime", Json.ofOption .string f.created),
        ("modifiedTime", Json.ofOption .string f.modified), ("trashed", .bool f.trashed)] := by
    refine entriesOf_object
      (show ["id", "name", "mimeType", "createdTime", "modifiedTime", "trashed"].Nodup by decide)
      ?_ ?_
    · refine .cons (.cons (.cons (.cons (.cons (.cons passes_nil rfl ?_) rfl ?_) rfl ?_) rfl ?_)
        rfl ?_) rfl ?_
      · exact check_defaulted _ (show boolean (.bool f.trashed) = .ok f.trashed from rfl)
      · exact check_defaulted _ hmodified
      · exact check_defaulted _ hcreated
      · exact check_defaulted _ (string_string f.mimeType)
      · exact check_defaulted _ (string_string f.name)
      · exact check_required _ (string_string f.id)
    · intro g hg hin
      simp only [shape, List.mem_cons, List.not_mem_nil, or_false] at hg
      rcases hg with rfl | rfl | rfl | rfl | rfl | rfl
      · rfl
      all_goals cases hin
  rw [decode, hentries]
  simp only [bind, Except.bind]
  rw [field_of_lookup rfl (string_string f.id), fieldD_of_lookup "" rfl (string_string f.name),
    fieldD_of_lookup "" rfl (string_string f.mimeType), fieldD_of_lookup none rfl hcreated,
    fieldD_of_lookup none rfl hmodified,
    fieldD_of_lookup false rfl (show boolean (.bool f.trashed) = .ok f.trashed from rfl)]

end File

/-- A file is read from the reply that tells of it. -/
theorem readFile?_replyOf (f : File) : readFile? (replyOf f.toJson) = .ok (some f) := by
  have hdecode : (replyOf f.toJson).decode File.shape.outline File.decode = .ok f :=
    Reply.decode_pretty File.shows f.whole_toJson (congrArg Except.toOption f.decode_toJson)
  unfold readFile?
  rw [hdecode]
  rfl

/-- A query tells the folder and the page. -/
theorem query_eq_iff {folder folder' : String} {name name' : Option String} :
    (inquiry folder).query name = (inquiry folder').query name' ↔
      (folder, name) = (folder', name') := by
  constructor
  · intro h
    simp only [Http.Inquiry.query, inquiry, childQuery, List.cons_append, List.nil_append,
      List.cons.injEq, Prod.mk.injEq, String.append_left_inj, String.append_right_inj,
      true_and] at h
    obtain ⟨rfl, hmarked⟩ := h
    have hname := congrArg List.head? ((List.map_inj_right fun _ _ heq =>
      (Prod.mk.inj heq).2).mp hmarked)
    rw [Option.head?_toList, Option.head?_toList] at hname
    rw [hname]
  · intro h
    cases h
    rfl

/-- A page of files, with the name of the next page if there is one. -/
def pageJson (files : List File) (next : Option String) : Json :=
  .object (("files", .array (files.map File.toJson)) ::
    next.toList.map fun name => ("nextPageToken", .string name))

theorem whole_pageJson (files : List File) (next : Option String) :
    Whole (pageJson files next) := by
  refine .object (List.forall_mem_cons.mpr ⟨.array ?_, ?_⟩)
  · intro v hv
    obtain ⟨f, _, rfl⟩ := List.mem_map.mp hv
    exact f.whole_toJson
  · intro e he
    obtain ⟨name, _, rfl⟩ := List.mem_map.mp he
    exact .string name

/-- A page is decoded from what it is encoded as. -/
theorem decodeListed_pageJson (files : List File) (next : Option String) :
    decodeListed (pageJson files next) = .ok (files, next) := by
  have hfiles : list File.decode (.array (files.map File.toJson)) = .ok files :=
    list_map fun f _ => f.decode_toJson
  have hentries : entriesOf pageShape (pageJson files next) = .ok
      (("files", .array (files.map File.toJson)) ::
        next.toList.map fun name => ("nextPageToken", .string name)) := by
    refine entriesOf_object ?_ ?_ ?_
    · cases next with
      | none => exact show ["files"].Nodup by decide
      | some name => exact show ["files", "nextPageToken"].Nodup by decide
    · refine .cons ?_ rfl (check_defaulted _ hfiles)
      cases next with
      | none => exact passes_nil
      | some name =>
          exact .cons passes_nil rfl (check_defaulted _
            (optional_of_ne_null Json.noConfusion (string_string name)))
    · intro g hg hin
      simp only [pageShape, List.mem_cons, List.not_mem_nil, or_false] at hg
      rcases hg with rfl | rfl <;> cases hin
  have hlookup : (("files", .array (files.map File.toJson)) ::
      next.toList.map fun name => ("nextPageToken", Json.string name)).lookup "nextPageToken" =
        next.map .string := by
    cases next <;> rfl
  have hnext := fieldD_optional hlookup (fun _ _ => Json.noConfusion)
    fun name _ => string_string name
  rw [decodeListed, hentries]
  simp only [bind, Except.bind]
  rw [fieldD_of_lookup [] rfl hfiles]
  simp only [hnext]

theorem decode_pageJson (files : List File) (next : Option String) :
    (replyOf (pageJson files next)).decode pageOutline decodeListed = .ok (files, next) :=
  Reply.decode_pretty shows_listed (whole_pageJson files next)
    (congrArg Except.toOption (decodeListed_pageJson files next))

/-- A page without the name of another one is the last one. -/
theorem means_last (files : List File) :
    Means (replyOf (pageJson files none)) (.last files) :=
  .last rfl (decode_pageJson files none) (Or.inl rfl)

/-- A page that names another one is followed by it. -/
theorem means_more (files : List File) {next : String} (hnext : next ≠ "") :
    Means (replyOf (pageJson files (some next))) (.more files next) :=
  .more rfl (decode_pageJson files (some next)) hnext

/-- A page is read from the reply that lists it. -/
theorem readPage_pageJson (files : List File) {next : Option String} (hnext : next ≠ some "") :
    readPage (replyOf (pageJson files next)) = .ok ⟨files, next⟩ := by
  cases next with
  | none => exact readPage_of_means (means_last files)
  | some name => exact readPage_of_means (means_more files fun h => hnext (congrArg some h))

end Intake.Drive
