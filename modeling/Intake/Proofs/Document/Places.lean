import Intake.Document.Lifecycle
import Intake.Output
import Intake.Proofs.Document.Stems
import Intake.Proofs.Files.Paths

/-!
# The places of a document

The name of a result is always an ordinary name, so results stand directly in the output
directory; staged files stand directly in the download directory wherever their names are
ordinary.
-/

namespace Intake

namespace Document

open Files

theorem toList_outputName (locator : String) :
    (outputName locator).toList = (stem locator).toList ++ ".json".toList := by
  rw [outputName, String.toList_ofList]

/-- The name of a staged file is the stem and what the extension adds to it. -/
theorem toList_stagedName (locator extension : String) :
    (stagedName locator extension).toList = (stem locator).toList ++
      if (extension.toList.dropWhile (· = '.')).isEmpty then []
      else '.' :: extension.toList.dropWhile (· = '.') := by
  rw [stagedName]
  split
  · rw [List.append_nil]
  · rw [String.toList_ofList]

/-- The name of a result leads to a single entry of the output directory. -/
theorem ordinaryName_outputName (locator : String) : Path.OrdinaryName (outputName locator) := by
  have htext := toList_outputName locator
  have hlength : 5 ≤ (outputName locator).toList.length := by
    rw [htext, List.length_append]
    exact Nat.le_add_left 5 _
  refine ⟨?_, ?_, ?_⟩
  · intro h
    rw [h] at hlength
    simp at hlength
  · rw [htext, List.mem_append]
    rintro (h | h)
    · exact slash_notMem_stem locator h
    · simp at h
  · rw [FileSystem.isDots, Bool.or_eq_false_iff]
    constructor <;> rw [beq_eq_false_iff_ne] <;> intro h <;> rw [h] at hlength <;>
      simp at hlength

variable {σ : Type}

/-- The place of the staged file, seen from a current directory. -/
def stagingPlace (d : Document σ) (cwd : Location) : Location := d.stagingPath.location cwd

/-- The place of the result, seen from a current directory. -/
def outputPlace (d : Document σ) (cwd : Location) : Location := d.outputPath.location cwd

theorem outputPlace_eq (d : Document σ) (cwd : Location) :
    d.outputPlace cwd = d.settings.outputDir.location cwd ++ [outputName d.locator] :=
  Path.location_join _ cwd (ordinaryName_outputName d.locator)

/-- The name of the staged file of a source. -/
def stagedNameOf (source : Source σ) : String := stagedName source.locator source.extension

theorem stagingPath_eq (d : Document σ) :
    d.stagingPath = d.settings.downloadDir.join (stagedNameOf d.source) := rfl

theorem stagingPlace_eq {d : Document σ} (h : Path.OrdinaryName (stagedNameOf d.source))
    (cwd : Location) :
    d.stagingPlace cwd = d.settings.downloadDir.location cwd ++ [stagedNameOf d.source] :=
  Path.location_join _ cwd h

/-- The directory that a result is written to, with its components alone. -/
theorem parent?_outputPath (d : Document σ) :
    d.outputPath.parent? =
      some (.ofComponents d.settings.outputDir.isAbsolute d.settings.outputDir.components) :=
  Path.parent?_join _ (ordinaryName_outputName d.locator)

end Document

end Intake
