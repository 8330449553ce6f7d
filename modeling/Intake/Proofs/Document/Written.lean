import Intake.Output
import Intake.Proofs.Element.Written
import Intake.Proofs.Files.Publishing

/-!
# Written results are read back

A result is decoded from the value that it is encoded as, and that value is read back from
its indented text; so the bytes of a written result denote the result. The one condition is
that page numbers have 32 bits.
-/

namespace Intake

open Json (Whole)
open Json.Decode

/-! ## Windows -/

namespace Time.Window

theorem optional_bound (o : Option Instant) :
    Json.Decode.optional Json.Decode.instant (Json.ofOption Instant.toJson o) = .ok o :=
  optional_ofOption (fun _ _ => Json.noConfusion) fun t _ => instant_toJson t

theorem decode_toJson (w : Window) : decode w.toJson = .ok w := by
  have hentries : entriesOf shape w.toJson = .ok
      [("created_at", Json.ofOption Instant.toJson w.createdAt),
        ("modified_at", Json.ofOption Instant.toJson w.modifiedAt)] := by
    refine entriesOf_object (show ["created_at", "modified_at"].Nodup by decide) ?_ ?_
    · exact (passes_nil.cons rfl (check_nullable _ (optional_bound w.modifiedAt))).cons rfl
        (check_nullable _ (optional_bound w.createdAt))
    · intro f hf hin
      simp only [shape, List.mem_cons, List.not_mem_nil, or_false] at hf
      rcases hf with rfl | rfl <;> cases hin
  rw [decode, hentries]
  simp only [bind, Except.bind]
  rw [fieldD_of_lookup none rfl (optional_bound _), fieldD_of_lookup none rfl (optional_bound _)]

theorem whole_toJson (w : Window) : Whole w.toJson := by
  refine .object fun e he => ?_
  simp only [List.mem_cons, List.not_mem_nil, or_false] at he
  rcases he with rfl | rfl
  · exact Json.whole_ofOption fun t _ => .string _
  · exact Json.whole_ofOption fun t _ => .string _

end Time.Window

/-! ## Results -/

namespace Output

/-- Whether all pages in a result have numbers of 32 bits. -/
def Fits (o : Output) : Prop := ∀ p ∈ o.elements, p.core.origin.Fits

variable {o : Output}

/-- The entries of a result. -/
def entries (o : Output) : List (String × Json) :=
  [("source_locator", .string o.locator), ("filename", .string o.filename),
    ("metadata", o.window.toJson), ("processed_at", o.processedAt.toJson),
    ("elements", .array (o.elements.map (·.toJson)))]

theorem passes_entries (hfits : o.Fits) : Passes shape.fields o.entries :=
  ((((passes_nil.cons rfl (check_required _ (list_map fun p hp =>
      Element.Paragraph.decode_toJson (hfits p hp)))).cons rfl
    (check_required _ (instant_toJson o.processedAt))).cons rfl
    (check_required _ o.window.decode_toJson)).cons rfl
    (check_required _ (string_string o.filename))).cons rfl
    (check_required _ (string_string o.locator))

theorem entriesOf_toJson (hfits : o.Fits) : entriesOf shape o.toJson = .ok o.entries := by
  have hnodup : (o.entries.map (·.1)).Nodup :=
    show ["source_locator", "filename", "metadata", "processed_at", "elements"].Nodup by decide
  refine entriesOf_object hnodup (passes_entries hfits) fun f hf _ => ?_
  simp only [shape, List.mem_cons, List.not_mem_nil, or_false] at hf
  rcases hf with rfl | rfl | rfl | rfl | rfl <;> rfl

theorem decode_toJson (hfits : o.Fits) : decode o.toJson = .ok o := by
  rw [decode, entriesOf_toJson hfits]
  simp only [bind, Except.bind]
  rw [field_of_lookup rfl (string_string _), field_of_lookup rfl (string_string _),
    field_of_lookup rfl o.window.decode_toJson, field_of_lookup rfl (instant_toJson _),
    field_of_lookup rfl (list_map fun p hp => Element.Paragraph.decode_toJson (hfits p hp))]

theorem whole_toJson (hfits : o.Fits) : Whole o.toJson := by
  refine .object fun e he => ?_
  change e ∈ o.entries at he
  simp only [entries, List.mem_cons, List.not_mem_nil, or_false] at he
  rcases he with rfl | rfl | rfl | rfl | rfl
  · exact .string _
  · exact .string _
  · exact o.window.whole_toJson
  · exact .string _
  · refine .array fun v hv => ?_
    obtain ⟨p, hp, rfl⟩ := List.mem_map.mp hv
    exact Element.Paragraph.whole_toJson (hfits p hp)

/-- The result that some bytes denote, if they are the text of one. -/
def ofBytes? (bytes : ByteArray) : Option Output := do
  let text ← String.fromUTF8? bytes
  let v ← Json.read text
  (decode v).toOption

/-- **Results are read back.** The bytes of a result denote the result. -/
theorem ofBytes?_bytes (hfits : o.Fits) : ofBytes? o.bytes = some o := by
  rw [ofBytes?, bytes, Text.fromUTF8?_toUTF8]
  simp only [Option.bind_eq_bind, Option.bind_some, Json.read_pretty (whole_toJson hfits),
    decode_toJson hfits]
  rfl

theorem write_eq_publish (fs : Files.FileSystem) (p : Files.Path) : o.write fs p =
    fs.publish Fault.ofFile ((p.parent?).getD ⟨"."⟩) p (.ok o.bytes) := rfl

/-- What was written was not struck by a fault. -/
theorem write_of_ok {fs fs' : Files.FileSystem} {p : Files.Path} {struck : Option Fault}
    (h : o.write fs p struck = (.ok (), fs')) : o.write fs p = (.ok (), fs') := by
  obtain ⟨_, _, _, hbytes, _⟩ := Files.FileSystem.touched_publish_ok (congrArg Prod.fst h)
  cases struck with
  | none => exact h
  | some f => cases hbytes

/-- The bytes of a written result are read from its path. -/
theorem read_of_write {fs fs' : Files.FileSystem} {p : Files.Path}
    (h : o.write fs p = (.ok (), fs')) : fs'.read p = .ok o.bytes := by
  have hpublish := Files.FileSystem.touched_publish_ok (congrArg Prod.fst h)
  rw [write] at h
  rw [h] at hpublish
  obtain ⟨htouched, hfile, bytes, hbytes, hcontent⟩ := hpublish
  cases hbytes
  exact Files.FileSystem.read_of_isFile hfile (htouched.cwd.symm ▸ hcontent)

end Output

/-! ## Results and elements -/

open Element Files in
/-- **What was written is read back.** A result that was written to a path is what the file there
denotes, with the identifiers, the kinds and the origins of its elements; and a name or a paragraph
with an identifier is what its value denotes, as it was encoded and in canonical form, and that
value is what its text denotes. -/
theorem written_read_back :
    (∀ (o : Output) (fs fs' : FileSystem) (p : Path), o.Fits → o.write fs p = (.ok (), fs') →
      ∃ bytes, fs'.read p = .ok bytes ∧ Output.ofBytes? bytes = some o) ∧
    (∀ (n : Name) (fresh : Id), n.core.origin.Fits → n.core.id.text ≠ "" →
      Json.read n.toJson.pretty = some n.toJson ∧ Name.ofJson fresh n.toJson = .ok n ∧
        Name.ofJson fresh n.toJson.canonical = .ok n) ∧
    ∀ (p : Paragraph) (fresh : Id), p.core.origin.Fits → p.core.id.text ≠ "" →
      Json.read p.toJson.pretty = some p.toJson ∧ Paragraph.ofJson fresh p.toJson = .ok p ∧
        Paragraph.ofJson fresh p.toJson.canonical = .ok p := by
  refine ⟨?_, ?_, ?_⟩
  · intro o fs fs' p hfits hwrite
    exact ⟨o.bytes, Output.read_of_write hwrite, Output.ofBytes?_bytes hfits⟩
  · intro n fresh hfits hid
    refine ⟨Json.read_pretty (Name.whole_toJson hfits), ?_, ?_⟩
    · exact Name.ofJson_of_perm (.refl _) (Origin.decodeAs_toJson rfl hfits) fresh hid
    · exact Name.ofJson_of_perm n.canonical_perm (Origin.decodeAs_canonical rfl hfits) fresh hid
  · intro p fresh hfits hid
    refine ⟨Json.read_pretty (Paragraph.whole_toJson hfits), ?_, ?_⟩
    · exact Paragraph.ofJson_of_perm (.refl _) (Origin.decodeAs_toJson rfl hfits) fresh hid
    · exact Paragraph.ofJson_of_perm p.canonical_perm (Origin.decodeAs_canonical rfl hfits) fresh
        hid

/-- What is known of an element on the last page that there can be. -/
def lastPage : Element.Core := ⟨⟨"id-1"⟩, ⟨some 4294967295, some "a\"b.txt", none⟩⟩

/-- A heading of a letter, with a second that is added to the last day of a year. -/
def dated : Element.Name :=
  ⟨.sender, lastPage, "A\nB", "", some ⟨1483228799, 1500000000, by decide⟩⟩

/-- A title on the last page. -/
def heading : Element.Paragraph := ⟨.title, lastPage, "\t\\"⟩

/-- A result with one title, which was worked on after the year 9999. -/
def report : Output := ⟨"x", "x.txt", .empty, ⟨253402300800, 7, by decide⟩, [heading]⟩

theorem written_read_back_dated_heading :
    (∃ bytes, (report.write ⟨.empty, []⟩ ⟨"o/x.json"⟩).2.read ⟨"o/x.json"⟩ = .ok bytes ∧
      Output.ofBytes? bytes = some report) ∧
    Element.Name.ofJson ⟨""⟩ dated.toJson.canonical = .ok dated ∧
    Element.Paragraph.ofJson ⟨""⟩ heading.toJson.canonical = .ok heading := by
  obtain ⟨hresults, hnames, hparagraphs⟩ := written_read_back
  have hfits : lastPage.origin.Fits := by
    intro n hn
    obtain rfl := Option.some.inj hn
    decide
  refine ⟨?_, ?_, ?_⟩
  · have hall : report.Fits := by
      intro p hp
      obtain rfl := List.mem_singleton.mp hp
      exact hfits
    have hok : (report.write ⟨.empty, []⟩ ⟨"o/x.json"⟩).1.isOk = true := by decide +kernel
    cases hwrite : report.write ⟨.empty, []⟩ ⟨"o/x.json"⟩ with
    | mk r fs' =>
        cases r with
        | ok u => exact hresults report _ fs' _ hall hwrite
        | error f =>
            rw [hwrite] at hok
            cases hok
  · exact (hnames dated ⟨""⟩ hfits (by decide)).2.2
  · exact (hparagraphs heading ⟨""⟩ hfits (by decide)).2.2

end Intake
