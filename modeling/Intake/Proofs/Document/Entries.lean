import Intake.Proofs.Document.Extensions
import Mathlib.Data.Set.Insert

/-!
# Files that stand directly in their directories

A result always has a proper name in the output directory. So has a staged file in the download
directory, unless it has no extension and its locator is itself no name for a file. Nothing is
ever found under such a name, moved to it or removed from it.
-/

namespace Intake.Document

open Files

/-- A name that leads to a single entry of a directory, whichever of the two separators is used. -/
structure Proper (name : String) : Prop where
  ordinary : Path.OrdinaryName name
  plain : Plain name

/-- Whether a path is that of a directory and one component more, which is a proper name. -/
def EntryOf (dir p : Path) : Prop :=
  ∃ name, Proper name ∧ p = dir.join name ∧ p.components = dir.components ++ [name]

/-- The places of the entries of a directory that have proper names. -/
def within (dir : Path) (cwd : Location) : Set Location :=
  {loc | ∃ name, Proper name ∧ loc = dir.location cwd ++ [name]}

theorem Proper.mem_within {name : String} (h : Proper name) (dir : Path) (cwd : Location) :
    (dir.join name).location cwd ∈ within dir cwd :=
  ⟨name, h, Path.location_join dir cwd h.ordinary⟩

theorem entryOf_join {dir : Path} {name : String} (hslash : '/' ∉ name.toList) :
    EntryOf dir (dir.join name) ↔ Proper name := by
  constructor
  · rintro ⟨name', hname', hjoin, _⟩
    have hhead : name.toList.head? ≠ some '/' := fun heq => hslash (List.mem_of_head? heq)
    rwa [(Path.join_inj hhead hname'.ordinary.head?).mp hjoin]
  · exact fun h => ⟨name, h, rfl, Path.components_join dir h.ordinary⟩

/-! ## Names of results -/

theorem plain_outputName (locator : String) : Plain (outputName locator) := by
  intro c hc
  rw [toList_outputName, List.mem_append] at hc
  rcases hc with hc | hc
  · exact plain_stem locator c hc
  · have hending : ".json".toList.all (fun c => !isSeparator c) = true := rfl
    simpa using List.all_eq_true.mp hending c hc

theorem proper_outputName (locator : String) : Proper (outputName locator) :=
  ⟨ordinaryName_outputName locator, plain_outputName locator⟩

/-! ## Names of staged files -/

theorem isSeparator_of_isAlphanum {c : Char} (h : c.isAlphanum = true) : isSeparator c = false := by
  rw [isSeparator, Bool.or_eq_false_iff]
  constructor <;> rw [beq_eq_false_iff_ne] <;> rintro rfl <;> cases h

theorem plain_stagedName {locator extension : String} (h : SoundExtension extension) :
    Plain (stagedName locator extension) := by
  intro c hc
  rw [toList_stagedName, h.dropWhile] at hc
  split at hc
  · rw [List.append_nil] at hc
    exact plain_stem locator c hc
  · rw [List.mem_append, List.mem_cons] at hc
    rcases hc with hc | rfl | hc
    · exact plain_stem locator c hc
    · rfl
    · exact isSeparator_of_isAlphanum (h c hc)

/-- A stem of few characters is the locator, since that of a locator with separators has the
digits of its digest. -/
theorem stem_of_short {locator : String} (h : (stem locator).toList.length ≤ stemDigits) :
    stem locator = locator := by
  by_cases hplain : Plain locator
  · exact stem_of_plain hplain
  · rw [toList_stem hplain, List.length_append, List.length_cons, length_shortDigest] at h
    omega

/-- The texts that are no names for files. -/
def isNowhere (name : String) : Bool := name.isEmpty || FileSystem.isDots name

theorem isNowhere_iff {name : String} :
    isNowhere name = true ↔ name = "" ∨ name = "." ∨ name = ".." := by
  simp [isNowhere, FileSystem.isDots]

theorem isNowhere_stem (locator : String) : isNowhere (stem locator) = isNowhere locator := by
  rw [Bool.eq_iff_iff]
  constructor <;> intro h
  · have hshort : (stem locator).toList.length ≤ stemDigits := by
      rcases isNowhere_iff.mp h with h | h | h <;> rw [h] <;> decide
    rwa [← stem_of_short hshort]
  · have hplain : Plain locator := by
      rcases isNowhere_iff.mp h with rfl | rfl | rfl <;> decide
    rwa [stem_of_plain hplain]

/-- Without an extension the stem is the name. -/
theorem stagedName_empty (locator : String) : stagedName locator "" = stem locator := rfl

/-- A staged file has a proper name, unless it has no extension and its locator is nowhere. -/
theorem proper_stagedName_iff {locator extension : String} (h : SoundExtension extension) :
    Proper (stagedName locator extension) ↔ ¬(extension = "" ∧ isNowhere locator = true) := by
  by_cases hext : extension = ""
  · subst hext
    rw [stagedName_empty, ← isNowhere_stem, isNowhere, Bool.or_eq_true, not_and_or, not_or]
    constructor
    · rintro ⟨⟨hne, _, hdots⟩, _⟩
      exact Or.inr ⟨by simpa using hne, by simpa using hdots⟩
    · rintro (hne | ⟨hne, hdots⟩)
      · exact absurd rfl hne
      · exact ⟨⟨by simpa using hne, slash_notMem_stem locator, by simpa using hdots⟩,
          plain_stem locator⟩
  · refine iff_of_true ⟨ordinaryName_stagedName h hext, plain_stagedName h⟩ fun hnone => ?_
    exact hext hnone.1

end Intake.Document
