import Intake.Drive.Item
import Intake.Proofs.Document.Places
import Intake.Slack.Channel

/-!
# Extensions of staged files

The staged file of a channel is a dump, and that of a file has an extension of letters and
digits. So a staged file stands in the place of the result only if it has the extension of
results and both directories are the same.
-/

namespace Intake

/-! ## Extensions of files -/

theorem isAlphanum_toLower {c : Char} (h : c.isAlphanum = true) :
    c.toLower.isAlphanum = true := by
  unfold Char.toLower
  split
  · next hupper =>
      have hlow : 65 ≤ c.val.toNat := UInt32.le_iff_toNat_le.mp hupper.1
      have hhigh : c.val.toNat ≤ 90 := UInt32.le_iff_toNat_le.mp hupper.2
      have hsum : (c.val + 32).toNat = c.val.toNat + 32 := by
        have hstep : (32 : UInt32).toNat = 32 := rfl
        rw [UInt32.toNat_add, hstep]
        omega
      have hletter : 97 ≤ c.val + 32 ∧ c.val + 32 ≤ 122 := by
        rw [UInt32.le_iff_toNat_le, UInt32.le_iff_toNat_le, hsum]
        exact ⟨Nat.add_le_add_right hlow 32, Nat.add_le_add_right hhigh 32⟩
      -- alphanumeric are capitals, small letters and digits
      refine Bool.or_eq_true_iff.mpr (Or.inl (Bool.or_eq_true_iff.mpr (Or.inr ?_)))
      exact Bool.and_eq_true_iff.mpr ⟨decide_eq_true hletter.1, decide_eq_true hletter.2⟩
  · exact h

namespace Drive.File

theorem isAlphanum_suffix {name : String} {c : Char} (h : c ∈ (suffix name).toList) :
    c.isAlphanum = true := by
  rw [suffix] at h
  split at h
  · split at h
    · next hall =>
        rw [String.toList_ofList] at h
        obtain ⟨a, ha, rfl⟩ := List.mem_map.mp h
        exact isAlphanum_toLower (List.all_eq_true.mp hall a (List.mem_reverse.mp ha))
    · cases h
  · cases h

theorem isAlphanum_exportFormat {f : File} {format : Format} (hformat : f.exportFormat? = some format)
    {c : Char} (h : c ∈ format.extension.toList) : c.isAlphanum = true := by
  have hall : (exportFormats.all fun e => e.2.extension.toList.all Char.isAlphanum) = true := by
    decide
  rw [exportFormat?, List.lookup_eq_some_iff] at hformat
  obtain ⟨front, back, heq, _⟩ := hformat
  have hsound := List.all_eq_true.mp hall (f.mimeType, format) (by rw [heq]; simp)
  exact List.all_eq_true.mp hsound c h

/-- An extension is made of letters and digits. -/
theorem isAlphanum_extension {f : File} {c : Char} (h : c ∈ f.extension.toList) :
    c.isAlphanum = true := by
  rw [extension] at h
  split at h
  · next format hformat => exact isAlphanum_exportFormat hformat h
  · exact isAlphanum_suffix h

end Drive.File

/-! ## Places -/

namespace Document

open Files

variable {σ : Type}

/-- An extension of letters and digits, or none. -/
def SoundExtension (extension : String) : Prop := ∀ c ∈ extension.toList, c.isAlphanum = true

instance (extension : String) : Decidable (SoundExtension extension) :=
  decidable_of_iff (extension.toList.all Char.isAlphanum = true) List.all_eq_true

/-- A sound extension does not begin with dots. -/
theorem SoundExtension.dropWhile {extension : String} (h : SoundExtension extension) :
    extension.toList.dropWhile (· = '.') = extension.toList := by
  cases hcs : extension.toList with
  | nil => rfl
  | cons c rest =>
      have hc : c.isAlphanum = true := h c (by rw [hcs]; exact List.mem_cons_self)
      rw [List.dropWhile_cons_of_neg]
      rintro hdot
      rw [decide_eq_true_eq] at hdot
      rw [hdot] at hc
      cases hc

theorem slash_notMem_stagedName {locator extension : String} (h : SoundExtension extension) :
    '/' ∉ (stagedName locator extension).toList := by
  have hstem := slash_notMem_stem locator
  rw [toList_stagedName, h.dropWhile]
  split
  · rwa [List.append_nil]
  · rw [List.mem_append, List.mem_cons]
    rintro (hslash | hslash | hslash)
    · exact hstem hslash
    · cases hslash
    · exact Bool.noConfusion (h '/' hslash)

/-- The name of a staged file with an extension. -/
theorem stagedName_eq {locator extension : String} (h : SoundExtension extension)
    (hne : extension ≠ "") :
    stagedName locator extension =
      String.ofList ((stem locator).toList ++ '.' :: extension.toList) := by
  rw [← String.toList_inj, toList_stagedName, h.dropWhile, String.toList_ofList, if_neg]
  rw [List.isEmpty_iff, String.toList_eq_nil_iff]
  exact hne

/-- A staged file with an extension has an ordinary name. -/
theorem ordinaryName_stagedName {locator extension : String} (h : SoundExtension extension)
    (hne : extension ≠ "") : Path.OrdinaryName (stagedName locator extension) := by
  have hext : extension.toList ≠ [] := mt String.toList_eq_nil_iff.mp hne
  have hlast : (stagedName locator extension).toList.getLast? =
      some (extension.toList.getLast hext) := by
    rw [stagedName_eq h hne, String.toList_ofList, List.getLast?_append, List.getLast?_cons,
      List.getLast?_eq_some_getLast hext]
    rfl
  have hdot : extension.toList.getLast hext ≠ '.' := by
    intro heq
    have hc := h _ (List.getLast_mem hext)
    rw [heq] at hc
    cases hc
  refine ⟨?_, slash_notMem_stagedName h, ?_⟩
  · intro hempty
    rw [hempty] at hlast
    cases hlast
  · -- the names that lead nowhere end in a dot
    rw [FileSystem.isDots, Bool.or_eq_false_iff, beq_eq_false_iff_ne, beq_eq_false_iff_ne]
    constructor <;> intro heq <;> rw [heq] at hlast <;> exact hdot (Option.some.inj hlast).symm

theorem stem_ne_nil {locator : String} (h : locator ≠ "") : (stem locator).toList ≠ [] := by
  by_cases hplain : Plain locator
  · rw [stem_of_plain hplain]
    exact mt String.toList_eq_nil_iff.mp h
  · rw [toList_stem hplain]
    simp

/-- The extension of a source is that of its staged file, if the locator is not empty. -/
theorem extension?_stagingPath {d : Document σ} (h : SoundExtension d.source.extension)
    (hne : d.source.extension ≠ "") (hlocator : d.locator ≠ "") :
    d.stagingPath.extension? = some d.source.extension := by
  have hname : d.stagingPath.fileName? = some (stagedName d.locator d.source.extension) :=
    Path.fileName?_join _ (ordinaryName_stagedName h hne)
  have hdot : '.' ∉ d.source.extension.toList := fun hmem => Bool.noConfusion (h '.' hmem)
  rw [stagedName_eq h hne] at hname
  rw [Path.extension?_of_fileName? (stem_ne_nil hlocator) hdot hname, String.ofList_toList]

/-- Staged files are named like results only if they have the extension of results. -/
theorem stagedName_eq_outputName {locator extension : String} (h : SoundExtension extension) :
    stagedName locator extension = outputName locator ↔ extension = "json" := by
  rw [← String.toList_inj, toList_stagedName, toList_outputName, List.append_right_inj,
    h.dropWhile]
  split
  · next hempty =>
      rw [List.isEmpty_iff, String.toList_eq_nil_iff] at hempty
      subst hempty
      decide
  · rw [← String.toList_inj, show ".json".toList = '.' :: "json".toList from rfl,
      List.cons.injEq, and_iff_right rfl]

/-- A staged file with an ordinary name stands in the place of the result only if it has the
extension of results and the directories are the same. -/
theorem stagingPlace_eq_outputPlace {d : Document σ} (hsound : SoundExtension d.source.extension)
    (hname : Path.OrdinaryName (stagedNameOf d.source)) (cwd : Location) :
    d.stagingPlace cwd = d.outputPlace cwd ↔
      d.source.extension = "json" ∧
        d.settings.downloadDir.location cwd = d.settings.outputDir.location cwd := by
  rw [stagingPlace_eq hname, outputPlace_eq, ← List.concat_eq_append, ← List.concat_eq_append,
    List.concat_inj, ← stagedName_eq_outputName hsound, and_comm]
  rfl

end Document

end Intake
