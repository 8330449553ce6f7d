import Intake.Proofs.Cleaning.Blanks
import Intake.Proofs.Element.Numbering
import Intake.Proofs.Element.Processing

/-!
# Elements of dumps

A dump gives one element for each of its texts that has anything but blanks. What the dump
loses at the ends of texts makes no difference, since the default cleaning drops it, too.
-/

namespace Intake

open Element Files

namespace Processing

/-! ## Default cleaning -/

/-- The default cleaning never fails. -/
theorem clean_default (p : Paragraph) :
    p.clean defaultCleaners = .ok { p with text := Cleaning.extraWhitespace p.text } := rfl

theorem cleanAll_default (ps : List Paragraph) :
    cleanAll defaultCleaners ps =
      .ok ((ps.map fun p => { p with text := Cleaning.extraWhitespace p.text }).filter
        (!·.text.isEmpty)) := by
  have hmap : ps.mapM (Paragraph.clean defaultCleaners) =
      .ok (ps.map fun p => { p with text := Cleaning.extraWhitespace p.text }) :=
    mapM_eq_map fun p _ => clean_default p
  rw [cleanAll, hmap]
  rfl

/-! ## Dumps -/

/-- One element of narrative text for each text that has not only blanks, with the text cleaned
and with the identifier of its position. -/
def narration (origin : Origin) (texts : List String) : List Paragraph :=
  ((texts.filter (!Text.isBlankText ·)).map Cleaning.extraWhitespace).zipIdx.map fun (text, i) =>
    ⟨.narrativeText, ⟨Id.fingerprint text none i, origin⟩, text⟩

theorem from_narration (origin : Origin) (texts : List String) :
    From origin (narration origin texts) := by
  intro p hp
  obtain ⟨e, _, rfl⟩ := List.mem_map.mp hp
  rfl

/-- The cleaned texts that are left are those that had not only blanks. -/
theorem number_cleaned {origin : Origin} (hpage : origin.page = none) (texts : List String) :
    number ((texts.map fun text => Partition.unplaced .narrativeText origin
        (Cleaning.extraWhitespace text)).filter (!·.text.isEmpty)) = narration origin texts := by
  have hleft : (fun p : Paragraph => !p.text.isEmpty) ∘ (fun text => Partition.unplaced
      .narrativeText origin (Cleaning.extraWhitespace text)) = (!Text.isBlankText ·) := by
    funext text
    rw [Function.comp_apply, Partition.unplaced, Cleaning.isEmpty_extraWhitespace]
  rw [List.filter_map, hleft, number, numberFrom_eq, narration, List.zipIdx_map, List.zipIdx_map,
    List.map_map, List.map_map]
  refine List.map_congr_left fun e _ => ?_
  simp only [Function.comp, Prod.map, id, Partition.unplaced, Paragraph.identify, Core.identify,
    hpage]

/-- A file that holds a dump is made into the narration of its texts. -/
theorem process_dump {fs : FileSystem} {p : Path} {locator : String} {texts : List String}
    (hdump : isDump p = true) (hread : fs.read p = .ok (Dump.write texts).toUTF8) :
    process defaultCleaners fs p locator = .ok (narration (originOf p locator) texts) := by
  have helements : elementsOf (Dump.write texts) (isDump p) (originOf p locator) =
      .ok ((texts.map fun text => String.ofList (Dump.trimmed text.toList)).map
        (Partition.unplaced .narrativeText (originOf p locator))) := by
    rw [elementsOf, if_pos hdump, Dump.read_write]
  refine process_eq_ok.mpr ⟨_, _, _, _, hread, Text.fromUTF8?_toUTF8 _, helements,
    cleanAll_default _, ?_⟩
  rw [← number_cleaned rfl, List.map_map, List.map_map]
  -- what a dump drops at the ends of a text is dropped by the cleaning as well
  refine congrArg (fun ps : List Paragraph => number (ps.filter (!·.text.isEmpty))) ?_
  refine List.map_congr_left fun text _ => ?_
  rw [← Cleaning.extraWhitespace_trimmed text]
  rfl

end Processing

end Intake
