import Intake.Processing
import Intake.Proofs.Attempts
import Intake.Proofs.Document.Written

/-!
# Elements of staged files

All elements of a staged file have one origin, that of the file, whatever their cleaners do.
It has no page.
-/

namespace Intake

open Element Files

namespace Processing

/-- Whether elements have this origin. -/
def From (origin : Origin) (ps : List Paragraph) : Prop := ∀ p ∈ ps, p.core.origin = origin

variable {origin : Origin} {ps : List Paragraph}

theorem from_unplaced {α : Type} (as : List α) (kind : α → TextKind) (text : α → String) :
    From origin (as.map fun a => Partition.unplaced (kind a) origin (text a)) := by
  intro p hp
  obtain ⟨a, _, rfl⟩ := List.mem_map.mp hp
  rfl

theorem From.numberFrom (h : From origin ps) (index : Nat) :
    From origin (numberFrom index ps) := by
  induction ps generalizing index with
  | nil => exact fun _ hp => nomatch hp
  | cons p rest ih =>
      intro q hq
      rcases List.mem_cons.mp hq with rfl | hq
      · exact h p List.mem_cons_self
      · exact ih (fun p hp => h p (List.mem_cons_of_mem _ hp)) (index + 1) q hq

theorem from_elementsOf {content : String} {dump : Bool}
    (h : elementsOf content dump origin = .ok ps) : From origin ps := by
  rw [elementsOf] at h
  split at h
  · split at h
    · next texts _ =>
        cases h
        exact from_unplaced texts (fun _ => .narrativeText) id
    · cases h
  · cases h
    exact (from_unplaced _ _ _).numberFrom 0

variable {cleaners : List Cleaning.Cleaner}

/-- Cleaning changes texts only. -/
theorem core_clean {p q : Paragraph} (h : Paragraph.clean cleaners p = .ok q) :
    q.core = p.core := by
  obtain ⟨text, _, rfl⟩ := map_eq_ok.mp h
  rfl

/-- What is left after the cleaning: of the elements with their texts cleaned, those with a text. -/
theorem cleanAll_eq_ok {qs : List Paragraph} : cleanAll cleaners ps = .ok qs ↔
    ∃ cleaned, List.Forall₂ (fun p q => Paragraph.clean cleaners p = .ok q) ps cleaned ∧
      qs = cleaned.filter (!·.text.isEmpty) := by
  simp only [cleanAll, map_eq_ok, mapM_eq_ok, @eq_comm _ qs]

theorem From.cleaned {cleaned : List Paragraph} (hfrom : From origin ps)
    (h : List.Forall₂ (fun p q => Paragraph.clean cleaners p = .ok q) ps cleaned) :
    From origin cleaned := by
  induction h with
  | nil => exact hfrom
  | cons hclean _ ih =>
      obtain ⟨hfirst, hrest⟩ := List.forall_mem_cons.mp hfrom
      exact List.forall_mem_cons.mpr ⟨(core_clean hclean).symm ▸ hfirst, ih hrest⟩

theorem From.cleanAll {qs : List Paragraph} (hfrom : From origin ps)
    (h : cleanAll cleaners ps = .ok qs) : From origin qs := by
  obtain ⟨cleaned, hcleaned, rfl⟩ := cleanAll_eq_ok.mp h
  exact fun q hq => hfrom.cleaned hcleaned q (List.mem_filter.mp hq).1

/-- Where the elements of a staged file come from. -/
def originOf (p : Path) (locator : String) : Origin := ⟨none, p.fileName?, some locator⟩

/-- What making elements of a staged file takes: its bytes, their text, and clean elements. -/
theorem process_eq_ok {fs : FileSystem} {p : Path} {locator : String} :
    process cleaners fs p locator = .ok ps ↔
      ∃ bytes content raw kept, fs.read p = .ok bytes ∧ String.fromUTF8? bytes = some content ∧
        elementsOf content (isDump p) (originOf p locator) = .ok raw ∧
        cleanAll cleaners raw = .ok kept ∧ ps = number kept := by
  simp only [process, bind_eq_ok, mapError_eq_ok]
  constructor
  · rintro ⟨bytes, hread, h⟩
    cases hcontent : String.fromUTF8? bytes with
    | none =>
        rw [hcontent] at h
        cases h
    | some content =>
        simp only [hcontent, bind_eq_ok] at h
        obtain ⟨raw, hraw, kept, hkept, h⟩ := h
        cases h
        exact ⟨bytes, content, raw, kept, hread, hcontent, hraw, hkept, rfl⟩
  · rintro ⟨bytes, content, raw, kept, hread, hcontent, hraw, hkept, rfl⟩
    refine ⟨bytes, hread, ?_⟩
    simp only [hcontent, bind_eq_ok]
    exact ⟨raw, hraw, kept, hkept, rfl⟩

/-- The elements of a staged file have the origin of the file. -/
theorem from_process {fs : FileSystem} {p : Path} {locator : String}
    (h : process cleaners fs p locator = .ok ps) :
    From (originOf p locator) ps := by
  obtain ⟨_, _, raw, kept, _, _, hraw, hkept, rfl⟩ := process_eq_ok.mp h
  exact ((from_elementsOf hraw).cleanAll hkept).numberFrom 0

end Processing

/-- Whether a processor numbers pages with 32 bits only. -/
def Processor.Fits (processor : Processor) : Prop :=
  ∀ fs p locator ps, processor fs p locator = .elements ps →
    ∀ q ∈ ps, q.core.origin.Fits

/-- No pages are known of staged files. -/
theorem Processing.fits_processor (cleaners : List Cleaning.Cleaner) :
    Processor.Fits (processor cleaners) := by
  intro fs p locator ps h q hq
  rw [processor] at h
  cases hprocess : process cleaners fs p locator with
  | error f =>
      rw [hprocess] at h
      cases h
  | ok ps' =>
      rw [hprocess] at h
      cases h
      rw [from_process hprocess q hq]
      exact fun _ hn => nomatch hn

end Intake
