import Intake.Proofs.Run.Notes

/-!
# Runs one after the other

A run leaves something at the path of each result but for the documents that failed. The cleaning up
after it takes no result away, and as the path of the output directory does not lead through what is
cleaned up, the next run finds the results again. So it works on the documents that failed and on no
others.
-/

namespace Intake

open Files

variable {σ : Type}

/-! ## Ways that stay open -/

namespace Files

/-- Whether a place lies within the directory at another one. -/
def Within (outer loc : Location) : Prop := ∃ name rest, loc = outer ++ name :: rest

theorem Within.mono {outer loc loc' : Location} (h : Within outer loc) (hpre : loc <+: loc') :
    Within outer loc' := by
  obtain ⟨name, rest, rfl⟩ := h
  obtain ⟨more, rfl⟩ := hpre
  exact ⟨name, rest ++ more, by rw [List.append_assoc, List.cons_append]⟩

theorem within_of_below {outer loc : Location} (hpre : outer <+: loc) (hne : loc ≠ outer) :
    Within outer loc := by
  obtain ⟨rest, rfl⟩ := hpre
  cases rest with
  | nil => exact absurd (List.append_nil outer) hne
  | cons name rest => exact ⟨name, rest, rfl⟩

namespace FileSystem

section Reopened

variable {fs fs' : FileSystem} {p : Path} {outer : Location}
  (houtside : ∀ front back, p.names = front ++ ".." :: back →
    ¬Within outer (front.foldl Location.enter (fs.origin p)))
  (hnot : ¬outer <+: p.location fs.cwd)

include houtside hnot

/-- A path that does not go up from within a directory, and does not lead into it, passes no place
within it. -/
theorem passes_outside {front back : List String} (hnames : p.names = front ++ back) :
    ¬Within outer (front.foldl Location.enter (fs.origin p)) := by
  intro hwithin
  by_cases hup : ".." ∈ back
  · obtain ⟨down, up, rfl, hdown⟩ := List.eq_append_cons_of_mem hup
    refine houtside (front ++ down) up (by rw [hnames, List.append_assoc]) ?_
    rw [List.foldl_append]
    exact hwithin.mono (Path.prefix_enter hdown _)
  · obtain ⟨name, rest, hplace⟩ := hwithin.mono (Path.prefix_enter hup _)
    rw [← List.foldl_append, ← hnames] at hplace
    apply hnot
    rw [Path.location, ← origin, hplace]
    exact List.prefix_append _ _

/-- A path that is grounded stays so if directories go only within a directory that it does not
pass. -/
theorem Grounded.reopened (h : fs.Grounded p) (hcwd : fs'.cwd = fs.cwd)
    (hkept : ∀ loc, fs.sight? loc = some .directory → ¬Within outer loc →
      fs'.sight? loc = some .directory) : fs'.Grounded p where
  origin := by
    rw [FileSystem.origin, hcwd]
    exact hkept _ h.origin (passes_outside houtside hnot (List.nil_append _).symm)
  up front back hsplit := by
    obtain ⟨loc, hwalk, hdir⟩ := h.up front back hsplit
    have hloc := location_of_walk hwalk
    refine ⟨loc, ?_, ?_⟩
    · rw [FileSystem.origin, hcwd, ← FileSystem.origin, hloc]
      refine walk_of_passed (short_of_walk hwalk) ?_
      intro front' back' hfront
      rw [hfront] at hwalk
      obtain ⟨next, hfirst, hrest⟩ := walk_append_eq_ok.mp hwalk
      rw [← location_of_walk hfirst]
      apply hkept next (dir_of_walk hrest hdir)
      rw [location_of_walk hfirst]
      exact passes_outside houtside hnot (by rw [hsplit, hfront, List.append_assoc])
    · rw [hloc] at hdir ⊢
      exact hkept _ hdir (passes_outside houtside hnot hsplit)

end Reopened

end FileSystem

end Files

namespace Connector

/-- Directories of which neither is in the other one, an output directory whose path goes up only
from directories that are there and are not cleaned up, and sources whose files are not the results
of one another. -/
structure Firm (c : Connector σ) (sources : List (Source σ)) (fs : FileSystem) : Prop where
  grounded : fs.Grounded c.settings.outputDir
  outside : c.settings.retain = false →
    ∀ front back, c.settings.outputDir.names = front ++ ".." :: back →
      ¬Within (c.settings.downloadDir.location fs.cwd)
        (front.foldl Location.enter (fs.origin c.settings.outputDir))
  notAbove : ¬c.settings.downloadDir.location fs.cwd <+: c.settings.outputDir.location fs.cwd
  notBelow : ¬c.settings.outputDir.location fs.cwd <+: c.settings.downloadDir.location fs.cwd
  apart : ∀ source ∈ sources, ∀ source' ∈ sources,
    (Document.ofSource c.settings source).stagingPlace fs.cwd ≠
      (Document.ofSource c.settings source').outputPlace fs.cwd
  results : (sources.map fun source =>
    (Document.ofSource c.settings source).outputPlace fs.cwd).Nodup

section Again

variable {c : Connector σ} {sources : List (Source σ)} {prepared worked : FileSystem}

theorem Firm.spread (h : c.Firm sources prepared) (hready : prepared.Ready c.settings.downloadDir) :
    Spread c.settings (sources.map (.ofSource c.settings)) prepared where
  initial := Document.initial_of_sources c.settings sources
  grounded := h.grounded
  ready := hready
  notBelow := h.notBelow
  apart d hd d' hd' := by
    obtain ⟨source, hsource, rfl⟩ := List.mem_map.mp hd
    obtain ⟨source', hsource', rfl⟩ := List.mem_map.mp hd'
    exact h.apart source hsource source' hsource'
  results := by
    have hplaces := h.results
    have hmap : (sources.map fun source =>
        (Document.ofSource c.settings source).outputPlace prepared.cwd) =
        ((sources.map (Document.ofSource c.settings)).map fun d =>
          Document.outputName d.locator).map
            fun name => c.settings.outputDir.location prepared.cwd ++ [name] := by
      simp only [List.map_map]
      exact List.map_congr_left fun source _ => Document.outputPlace_eq _ _
    rw [hmap] at hplaces
    exact hplaces.of_map

theorem cwd_cleanUp (fs : FileSystem) : (c.cleanUp fs).cwd = fs.cwd := by
  rw [cleanUp]
  split
  · rfl
  · exact fs.cwd_pruneAt _

/-- A directory is there again for the next run, unless it was cleaned up within the download
directory. -/
theorem dir_again (hlater : prepared.Later worked)
    (hprepare : (c.prepare (c.cleanUp worked)).1 = .ok ()) {loc : Location}
    (houtside : c.settings.retain = false →
      ¬Within (c.settings.downloadDir.location prepared.cwd) loc)
    (hdir : prepared.sight? loc = some .directory) :
    (c.prepare (c.cleanUp worked)).2.sight? loc = some .directory := by
  have htouched := c.touched_prepare (c.cleanUp worked)
  have hworked := hlater.kept loc hdir
  by_cases hretain : c.settings.retain = true
  · apply htouched.kept
    rw [cleanUp, if_pos hretain]
    exact hworked
  · have hcleaned : c.cleanUp worked = (worked.pruneAt c.settings.downloadDir).2 := by
      rw [cleanUp, if_neg hretain]
    rcases worked.sight?_pruneAt_or c.settings.downloadDir loc with hsame | ⟨hnone, hbelow, _⟩
    · apply htouched.kept
      rw [hcleaned, hsame]
      exact hworked
    · -- what is gone is the download directory itself, which is made again
      have heq : loc = c.settings.downloadDir.location prepared.cwd := by
        rw [hlater.cwd] at hbelow
        by_contra hne
        exact houtside (Bool.not_eq_true _ ▸ hretain) (within_of_below hbelow hne)
      rcases ready_of_prepare hprepare with hempty | hready
      · have hnotDir : worked.isDir c.settings.downloadDir = false := by
          rw [Bool.eq_false_iff]
          intro hisDir
          exact (FileSystem.checkPath_eq_ok.mp (FileSystem.walk_of_isDir hisDir).1).2 hempty
        rw [FileSystem.pruneAt_of_not_isDir hnotDir, hworked] at hnone
        cases hnone
      · have hthere := (FileSystem.walk_of_isDir hready).2.2
        rw [htouched.cwd, cwd_cleanUp, hlater.cwd, ← heq] at hthere
        exact hthere

theorem cwd_again (hlater : prepared.Later worked) :
    (c.prepare (c.cleanUp worked)).2.cwd = prepared.cwd := by
  rw [(c.touched_prepare _).cwd, cwd_cleanUp, hlater.cwd]

theorem Firm.spread_again (h : c.Firm sources prepared) (hlater : prepared.Later worked)
    (hprepare : (c.prepare (c.cleanUp worked)).1 = .ok ()) :
    Spread c.settings (sources.map (.ofSource c.settings))
      (c.prepare (c.cleanUp worked)).2 := by
  have hcwd := cwd_again (c := c) hlater
  have hgrounded : (c.prepare (c.cleanUp worked)).2.Grounded c.settings.outputDir := by
    by_cases hretain : c.settings.retain = true
    · refine h.grounded.later ⟨hcwd, fun loc hdir => dir_again hlater hprepare ?_ hdir⟩
      intro hclean
      rw [hretain] at hclean
      cases hclean
    · have houtside := h.outside (Bool.not_eq_true _ ▸ hretain)
      exact h.grounded.reopened houtside h.notAbove hcwd
        fun loc hdir hnot => dir_again hlater hprepare (fun _ => hnot) hdir
  refine Firm.spread ⟨hgrounded, ?_, ?_, ?_, ?_, ?_⟩ (ready_of_prepare hprepare)
  · rw [FileSystem.origin, hcwd]
    exact h.outside
  · rw [hcwd]
    exact h.notAbove
  · rw [hcwd]
    exact h.notBelow
  · rw [hcwd]
    exact h.apart
  · rw [hcwd]
    exact h.results

/-- Neither the cleaning up after a run nor the beginning of the next one changes a result. -/
theorem Firm.sight?_again (h : c.Firm sources prepared)
    (hready : prepared.Ready c.settings.downloadDir) (hlater : prepared.Later worked)
    {d : Document σ} (hd : d.settings = c.settings) :
    (c.prepare (c.cleanUp worked)).2.sight? (d.outputPlace prepared.cwd) =
      (c.cleanUp worked).sight? (d.outputPlace prepared.cwd) := by
  have htouched := c.touched_prepare (c.cleanUp worked)
  have hcleaned := sight?_cleanUp h.notAbove h.notBelow hlater.cwd hd
  by_cases hway : d.outputPlace prepared.cwd ∈ worked.wayTo c.settings.downloadDir
  · -- the way to the download directory is open, so there is a directory in the place
    have hdir : worked.sight? (d.outputPlace prepared.cwd) = some .directory := by
      refine (h.spread hready).dir_of_ways hlater hd hd (Or.inl ?_)
      rw [hd]
      exact hway
    rw [hcleaned, hdir]
    exact htouched.kept _ (hcleaned.trans hdir)
  · refine htouched.sight? (Set.notMem_empty _) ?_
    rw [FileSystem.wayTo, cwd_cleanUp]
    exact hway

/-- What a run leaves at the path of a result the next run finds there. -/
theorem Firm.hasOutput_again (h : c.Firm sources prepared)
    (hready : prepared.Ready c.settings.downloadDir) (hlater : prepared.Later worked)
    (hprepare : (c.prepare (c.cleanUp worked)).1 = .ok ()) {d : Document σ}
    (hd : d.settings = c.settings) :
    d.hasOutput (c.prepare (c.cleanUp worked)).2 = d.hasOutput worked := by
  have hgrounded := (h.spread_again hlater hprepare).grounded
  rw [← hd] at hgrounded
  have hworked : worked.Grounded d.settings.outputDir := hd ▸ h.grounded.later hlater
  refine FileSystem.exists?_join_congr hworked hgrounded
    (Document.ordinaryName_outputName d.locator) ((cwd_again hlater).trans hlater.cwd.symm) ?_
  rw [hlater.cwd]
  exact (h.sight?_again hready hlater hd).trans
    (sight?_cleanUp h.notAbove h.notBelow hlater.cwd hd)

end Again

/-! ## Outcomes of two runs -/

/-- Whether the outcomes of a run follow from those of the run before it: the same documents are
skipped of which the outcome was no failure. -/
structure FollowsUp (os os' : List Outcome) : Prop where
  forth : ∀ o ∈ os, ∃ o' ∈ os', o'.locator = o.locator ∧ o'.isSkipped = o.failure?.isNone
  back : ∀ o' ∈ os', ∃ o ∈ os, o.locator = o'.locator ∧ o'.isSkipped = o.failure?.isNone

theorem eq_skipped {o : Outcome} (h : o.isSkipped = true) : o = .skipped o.locator := by
  cases o with
  | skipped locator => rfl
  | _ => cases h

theorem exists_failed {o : Outcome} (h : o.failure?.isNone = false) :
    ∃ f, o = .failed o.locator f := by
  cases o with
  | failed locator f => exact ⟨f, rfl⟩
  | _ => cases h

namespace FollowsUp

variable {os os' : List Outcome}

theorem skipped_iff (h : FollowsUp os os') (locator : String) :
    .skipped locator ∈ os' ↔ ∃ o ∈ os, o.locator = locator ∧ o.failure? = none := by
  constructor
  · intro hmem
    obtain ⟨o, ho, hlocator, hskipped⟩ := h.back _ hmem
    exact ⟨o, ho, hlocator, Option.isNone_iff_eq_none.mp hskipped.symm⟩
  · rintro ⟨o, ho, rfl, hnone⟩
    obtain ⟨o', ho', hlocator, hskipped⟩ := h.forth o ho
    rw [hnone] at hskipped
    rw [← hlocator, ← eq_skipped hskipped]
    exact ho'

theorem attempted_iff (h : FollowsUp os os') (locator : String) :
    (∃ o ∈ os', o.locator = locator ∧ o.isSkipped = false) ↔ ∃ f, .failed locator f ∈ os := by
  constructor
  · rintro ⟨o', ho', rfl, hattempted⟩
    obtain ⟨o, ho, hlocator, hskipped⟩ := h.back o' ho'
    obtain ⟨f, hf⟩ := exists_failed (hskipped.symm.trans hattempted)
    exact ⟨f, hlocator ▸ hf ▸ ho⟩
  · rintro ⟨f, hf⟩
    exact h.forth _ hf

/-- Where nothing failed, everything is skipped. -/
theorem counts (h : FollowsUp os os') (hnone : ∀ o ∈ os, o.failure? = none) :
    (Summary.ofOutcomes os').processed = 0 ∧ (Summary.ofOutcomes os').elements = 0 ∧
      (Summary.ofOutcomes os').skipped = os'.length := by
  have hall : ∀ o' ∈ os', o' = .skipped o'.locator := by
    intro o' ho'
    obtain ⟨o, ho, _, hskipped⟩ := h.back o' ho'
    rw [hnone o ho] at hskipped
    exact eq_skipped hskipped
  have hcounts := Summary.counts_ofOutcomes os'
  refine ⟨?_, ?_, ?_⟩
  · rw [hcounts.processed, List.countP_eq_zero]
    intro o' ho'
    rw [hall o' ho']
    exact Bool.false_ne_true
  · rw [hcounts.elements, List.sum_eq_zero_iff_forall_eq_nat]
    intro n hn
    obtain ⟨o', ho', rfl⟩ := List.mem_map.mp hn
    rw [hall o' ho']
    rfl
  · rw [hcounts.skipped, List.countP_eq_length]
    intro o' ho'
    rw [hall o' ho']
    rfl

end FollowsUp

/-! ## The next run -/

section Theorem

variable (c : Connector σ) (processor processor' : Processor) (conditions conditions' : Conditions)
  (schedule schedule' : Schedule) (w : World σ) (sources : List (Source σ))

/-- A run that does no more than what the run before it has left to do. -/
structure Incremental (os os' : List Outcome) : Prop where
  /-- The outcomes of the run before. -/
  before : c.outcomes processor conditions schedule w = .finished (.ok os)
  /-- The outcomes of the next run. -/
  next : c.outcomes processor' conditions' schedule' (c.run processor conditions schedule w).2 =
    .finished (.ok os')
  everyone : (os.map (·.locator)).Perm (sources.map (·.locator)) ∧
    (os'.map (·.locator)).Perm (sources.map (·.locator))
  /-- Those documents are skipped that were processed or skipped before. -/
  skipped : ∀ locator, .skipped locator ∈ os' ↔
    ∃ o ∈ os, o.locator = locator ∧ o.failure? = none
  /-- Those documents are attempted that failed before. -/
  attempted : ∀ locator, (∃ o ∈ os', o.locator = locator ∧ o.isSkipped = false) ↔
    ∃ f, .failed locator f ∈ os
  /-- Nothing is asked of the documents that are skipped. -/
  unasked : ∀ r ∈ c.asked processor' conditions' schedule'
      (c.run processor conditions schedule w).2,
    .skipped r.source.locator ∉ os'
  /-- Their results are the same after the next run as before it. -/
  kept : ∀ source ∈ sources, .skipped source.locator ∈ os' →
    (c.run processor' conditions' schedule'
        (c.run processor conditions schedule w).2).2.files.sight?
        ((Document.ofSource c.settings source).outputPlace w.files.cwd) =
      (c.run processor conditions schedule w).2.files.sight?
        ((Document.ofSource c.settings source).outputPlace w.files.cwd)
  /-- After a run without a failure, the totals tell of skipped documents alone. -/
  whole : (∀ o ∈ os, o.failure? = none) →
    ∃ summary, (c.run processor' conditions' schedule'
        (c.run processor conditions schedule w).2).1 =
      .finished (.ok summary) ∧ summary.processed = 0 ∧ summary.elements = 0 ∧
        summary.skipped = sources.length

end Theorem

section Next

variable {c : Connector σ} {processor : Processor} {conditions : Conditions} {schedule : Schedule}
  {w : World σ} {sources sources' : List (Source σ)} {remote : σ} {worked : FileSystem}
  {done : List (Document σ × Outcome)}

/-- Documents of the same settings and locator have one path for their results. -/
theorem hasOutput_of_locator {d d' : Document σ} (hsettings : d'.settings = d.settings)
    (hlocator : d'.locator = d.locator) (fs : FileSystem) : d'.hasOutput fs = d.hasOutput fs := by
  rw [Document.hasOutput, Document.hasOutput, Document.outputPath, Document.outputPath, hsettings,
    hlocator]

theorem locators_of_everyone {fs : FileSystem} {before : FileSystem}
    (h : Underway (sources.map (.ofSource c.settings)) before done [] fs) :
    (done.map (·.1.locator)).Perm (sources.map (·.locator)) := by
  have heveryone := h.everyone
  rw [List.map_nil, List.append_nil] at heveryone
  have hlocators := heveryone.map (·.locator)
  rw [List.map_map, List.map_map] at hlocators
  exact hlocators

theorem locators_of_recorded {fs : FileSystem} {before : FileSystem}
    (h : Underway (sources.map (.ofSource c.settings)) before done [] fs) :
    ((done.map (·.2)).map (·.locator)).Perm (sources.map (·.locator)) := by
  have hnamed : (done.map (·.2)).map (·.locator) = done.map (·.1.locator) := by
    rw [List.map_map]
    exact List.map_congr_left fun a ha => (h.recorded a ha).named
  rw [hnamed]
  exact locators_of_everyone h

end Next

section Theorem

variable {c : Connector σ} {processor processor' : Processor} {conditions conditions' : Conditions}
  {schedule schedule' : Schedule} {w : World σ} {sources sources' : List (Source σ)}
  {remote remote' : σ} {worked worked' : FileSystem} {done done' : List (Document σ × Outcome)}

/-- The outcomes of the next run follow from what the run before it has left. -/
theorem followsUp_of_underway
    (hfirm : c.Firm sources (c.prepare w.files).2)
    (hready : (c.prepare w.files).2.Ready c.settings.downloadDir)
    (hprepare : (c.prepare (c.cleanUp worked)).1 = .ok ())
    (hlocators : (sources'.map (·.locator)).Perm (sources.map (·.locator)))
    (h : Underway (sources.map (.ofSource c.settings)) (c.prepare w.files).2 done [] worked)
    (h' : Underway (sources'.map (.ofSource c.settings)) (c.prepare (c.cleanUp worked)).2 done' []
      worked')
    (hspread' : Spread c.settings (sources'.map (.ofSource c.settings))
      (c.prepare (c.cleanUp worked)).2) :
    FollowsUp (done.map (·.2)) (done'.map (·.2)) := by
  have hspread := hfirm.spread hready
  have hsame : ∀ a ∈ done, ∀ a' ∈ done', a'.1.locator = a.1.locator →
      a'.2.locator = a.2.locator ∧ a'.2.isSkipped = a.2.failure?.isNone := by
    intro a ha a' ha' hlocator
    have hd := (h.among_done hspread ha).2
    have hd' := (h'.among_done hspread' ha').2
    have hrecorded := h.recorded a ha
    have hrecorded' := h'.recorded a' ha'
    constructor
    · rw [hrecorded'.named, hlocator, hrecorded.named]
    · rw [hrecorded'.skipped, hasOutput_of_locator (hd'.trans hd.symm) hlocator,
        hfirm.hasOutput_again hready h.later hprepare hd]
      exact hrecorded.hasOutput_eq hspread h.later hd
  have hperm : (done'.map (·.1.locator)).Perm (done.map (·.1.locator)) :=
    (locators_of_everyone h').trans (hlocators.trans (locators_of_everyone h).symm)
  constructor
  · intro o ho
    obtain ⟨a, ha, rfl⟩ := List.mem_map.mp ho
    have hmem := hperm.mem_iff.mpr (List.mem_map_of_mem (f := (·.1.locator)) ha)
    obtain ⟨a', ha', hlocator⟩ := List.mem_map.mp hmem
    exact ⟨a'.2, List.mem_map_of_mem ha', hsame a ha a' ha' hlocator⟩
  · intro o' ho'
    obtain ⟨a', ha', rfl⟩ := List.mem_map.mp ho'
    have hmem := hperm.mem_iff.mp (List.mem_map_of_mem (f := (·.1.locator)) ha')
    obtain ⟨a, ha, hlocator⟩ := List.mem_map.mp hmem
    obtain ⟨hnamed, hskipped⟩ := hsame a ha a' ha' hlocator.symm
    exact ⟨a.2, List.mem_map_of_mem ha, hnamed.symm, hskipped⟩

/-- A document that was skipped had its result, which is the same after the work. -/
theorem result_of_skipped {before : FileSystem}
    (hspread : Spread c.settings (sources.map (.ofSource c.settings)) before)
    (h : Underway (sources.map (.ofSource c.settings)) before done [] worked) {d : Document σ}
    (hd : d.settings = c.settings) (hskipped : .skipped d.locator ∈ done.map (·.2)) :
    d.hasOutput before = true ∧
      worked.sight? (d.outputPlace before.cwd) = before.sight? (d.outputPlace before.cwd) := by
  obtain ⟨a, ha, houtcome⟩ := List.mem_map.mp hskipped
  have hrecorded := h.recorded a ha
  have hsettings := (h.among_done hspread ha).2
  rw [houtcome] at hrecorded
  have hlocator : d.locator = a.1.locator := hrecorded.named
  have hplace : d.outputPlace before.cwd = a.1.outputPlace before.cwd := by
    rw [d.outputPlace_eq, a.1.outputPlace_eq, hd, hsettings, hlocator]
  constructor
  · rw [hasOutput_of_locator (hd.trans hsettings.symm) hlocator]
    exact hrecorded.skipped.symm
  · rw [hplace]
    exact hrecorded.unprocessed rfl

/-- Nothing is asked of a document that is skipped. -/
theorem unasked_of_underway (henum : c.Enumerates w sources remote) (hlasting : processor.Lasting)
    (hreprocess : c.settings.reprocess = false)
    (hspread : Spread c.settings (sources.map (.ofSource c.settings)) (c.prepare w.files).2)
    (h : Underway (sources.map (.ofSource c.settings)) (c.prepare w.files).2 done [] worked) :
    ∀ r ∈ c.asked processor conditions schedule w, .skipped r.source.locator ∉ done.map (·.2) := by
  intro r hr hskipped
  obtain ⟨source, _, hlocator, hnone⟩ := asked_without_result henum hlasting hreprocess hspread r hr
  rw [hlocator] at hskipped
  have hthere := (result_of_skipped hspread h (d := .ofSource c.settings source) rfl hskipped).1
  exact Bool.false_ne_true (hnone.symm.trans hthere)

/-- The result of a document that the next run skips is what the run before it has left. -/
theorem kept_again {prepared : FileSystem} (hfirm : c.Firm sources prepared)
    (hready : prepared.Ready c.settings.downloadDir) (hlater : prepared.Later worked)
    (hspread' : Spread c.settings (sources'.map (.ofSource c.settings))
      (c.prepare (c.cleanUp worked)).2)
    (h' : Underway (sources'.map (.ofSource c.settings)) (c.prepare (c.cleanUp worked)).2 done' []
      worked') {source : Source σ} (hskipped : .skipped source.locator ∈ done'.map (·.2)) :
    (c.cleanUp worked').sight? ((Document.ofSource c.settings source).outputPlace prepared.cwd) =
      (c.cleanUp worked).sight?
        ((Document.ofSource c.settings source).outputPlace prepared.cwd) := by
  have hd : (Document.ofSource c.settings source).settings = c.settings := rfl
  have hcwd := cwd_again (c := c) hlater
  have hworked := (result_of_skipped hspread' h' hd hskipped).2
  rw [hcwd] at hworked
  calc (c.cleanUp worked').sight? _
      = worked'.sight? ((Document.ofSource c.settings source).outputPlace prepared.cwd) :=
        sight?_cleanUp hfirm.notAbove hfirm.notBelow (h'.later.cwd.trans hcwd) hd
    _ = _ := hworked
    _ = _ := hfirm.sight?_again hready hlater hd

/-- **Runs are incremental.** Whatever became of its documents, after a run the next one skips those
that did not fail, with nothing asked of them and their results as they were, and attempts the other
ones: if the processors do not break down, results are not made again, directories and results are
apart, and the path of the output directory holds. -/
theorem reruns_incremental (henum : c.Enumerates w sources remote)
    (henum' : c.Enumerates (c.run processor conditions schedule w).2 sources' remote')
    (hnames : (sources'.map fun source => (source.locator, source.extension)).Perm
      (sources.map fun source => (source.locator, source.extension)))
    (hreprocess : c.settings.reprocess = false) (hlasting : processor.Lasting)
    (hlasting' : processor'.Lasting) (hfirm : c.Firm sources (c.prepare w.files).2) :
    ∃ os os', Incremental c processor processor' conditions conditions' schedule schedule' w
      sources os os' := by
  have hready := ready_of_prepare henum.prepared
  have hlocators : (sources'.map (·.locator)).Perm (sources.map (·.locator)) := by
    have hfirst := hnames.map Prod.fst
    rw [List.map_map, List.map_map] at hfirst
    exact hfirst
  obtain ⟨done, hbefore, h⟩ := recorded_workOn processor conditions schedule henum
    hlasting hreprocess (hfirm.spread hready)
  have hprepare :
      (c.prepare (c.cleanUp (c.workOn processor conditions schedule w).2.files)).1 = .ok () :=
    henum'.prepared
  have hspread' : Spread c.settings (sources'.map (.ofSource c.settings))
      (c.prepare (c.cleanUp (c.workOn processor conditions schedule w).2.files)).2 := by
    refine (hfirm.spread_again h.later hprepare).of_names
      (Document.initial_of_sources c.settings sources') ?_
    rw [List.map_map, List.map_map]
    exact hnames
  obtain ⟨done', hnext, h'⟩ := recorded_workOn processor' conditions' schedule' henum'
    hlasting' hreprocess hspread'
  have hfollows := followsUp_of_underway hfirm hready hprepare hlocators h h' hspread'
  have heveryone' := (locators_of_recorded h').trans hlocators
  have hcwd : w.files.cwd = (c.prepare w.files).2.cwd := (c.touched_prepare w.files).cwd.symm
  refine ⟨done.map (·.2), done'.map (·.2), hbefore, hnext,
    ⟨locators_of_recorded h, heveryone'⟩, hfollows.skipped_iff, hfollows.attempted_iff,
    unasked_of_underway henum' hlasting' hreprocess hspread' h', ?_, ?_⟩
  · intro source _ hskipped
    rw [hcwd]
    exact kept_again hfirm hready h.later hspread' h' hskipped
  · intro hnone
    obtain ⟨hprocessed, helements, hskipped⟩ := hfollows.counts hnone
    refine ⟨.ofOutcomes (done'.map (·.2)), ?_, hprocessed, helements, ?_⟩
    · rw [run_eq_outcomes, hnext]
      rfl
    · have hlength := heveryone'.length_eq
      rw [List.length_map] at hlength
      rw [hskipped, hlength, List.length_map]

end Theorem

/-! ## Two runs of two documents -/

theorem lasting_usual : usual.Lasting := by
  intro fs p locator message h
  rw [usual, Processing.processor] at h
  cases hprocess : Processing.process Processing.defaultCleaners fs p locator with
  | error f =>
      rw [hprocess] at h
      cases h
  | ok ps =>
      rw [hprocess] at h
      cases h

theorem prepare_of_isOk {c : Connector σ} {fs : FileSystem} (h : (c.prepare fs).1.isOk = true) :
    (c.prepare fs).1 = .ok () := by
  cases hprepare : (c.prepare fs).1 with
  | ok u => rfl
  | error f =>
      rw [hprepare] at h
      cases h

theorem reruns_incremental_oneFails :
    ∃ os os', Incremental (.steady (.within ⟨"/d"⟩ ⟨"/o"⟩) oneFails) usual usual
      (.steady .epoch) (.steady .epoch) .inOrder .inOrder ⟨⟨.empty, []⟩, ()⟩ oneFails os os' := by
  refine reruns_incremental ⟨rfl, rfl⟩ ⟨prepare_of_isOk (by decide +kernel), rfl⟩ (.refl _) rfl
    lasting_usual lasting_usual ⟨?_, ?_, ?_, ?_, ?_, ?_⟩
  · exact FileSystem.grounded_of_notMem (by decide +kernel) (by decide +kernel)
  · intro _ front back hsplit
    have hnot : ".." ∉ (Files.Path.mk "/o").names := by decide +kernel
    exact absurd (hsplit ▸ List.mem_append_right front List.mem_cons_self) hnot
  · decide +kernel
  · decide +kernel
  · decide +kernel
  · decide +kernel

/-! ## Detours -/

/-- What is told of the totals of a run that came to its end. -/
def told (count : Summary → Nat) : Ending (Except Fault Summary) → Nat
  | .finished (.ok summary) => count summary
  | _ => 0

section Detours

variable {c : Connector σ} {processor processor' : Processor} {conditions conditions' : Conditions}
  {schedule schedule' : Schedule} {w : World σ} {sources : List (Source σ)} {os os' : List Outcome}

theorem Incremental.attempts_again
    (h : Incremental c processor processor' conditions conditions' schedule schedule' w sources
      os os')
    (hfailed : told Summary.failed (c.run processor conditions schedule w).1 ≠ 0) :
    told (·.skipped)
      (c.run processor' conditions' schedule' (c.run processor conditions schedule w).2).1 ≠
        sources.length := by
  have hfailures := (Summary.counts_ofOutcomes os).failures
  rw [run_eq_outcomes, h.before] at hfailed
  obtain ⟨failure, hmem⟩ := List.exists_mem_of_length_pos (Nat.pos_of_ne_zero hfailed)
  obtain ⟨o, ho, hfailure⟩ := List.mem_filterMap.mp (hfailures.mem_iff.mp hmem)
  have hsome : o.failure?.isNone = false := by rw [hfailure]; rfl
  obtain ⟨f, hf⟩ := exists_failed hsome
  obtain ⟨o', ho', _, hattempted⟩ := (h.attempted o.locator).mpr ⟨f, hf ▸ ho⟩
  rw [run_eq_outcomes, h.next]
  show (Summary.ofOutcomes os').skipped ≠ sources.length
  have hlength := h.everyone.2.length_eq
  rw [List.length_map, List.length_map] at hlength
  rw [(Summary.counts_ofOutcomes os').skipped, ← hlength]
  intro hall
  rw [List.countP_eq_length] at hall
  exact Bool.false_ne_true (hattempted.symm.trans (hall o' ho'))

theorem Incremental.nothing_again
    (h : Incremental c processor processor' conditions conditions' schedule schedule' w sources
      os os')
    (hfailed : told Summary.failed (c.run processor conditions schedule w).1 = 0) :
    told (·.processed)
      (c.run processor' conditions' schedule' (c.run processor conditions schedule w).2).1 = 0 := by
  rw [run_eq_outcomes, h.before] at hfailed
  have hfailures := (Summary.counts_ofOutcomes os).failures
  rw [List.length_eq_zero_iff.mp hfailed, List.nil_perm] at hfailures
  obtain ⟨summary, hsummary, hprocessed, _⟩ := h.whole fun o ho => by
    rw [List.filterMap_eq_nil_iff] at hfailures
    exact hfailures o ho
  rw [hsummary]
  exact hprocessed

end Detours

/-- Two runs on the same sources, with directories of which neither is in the other one and a path of
its own for each file. -/
structure Twice (c : Connector σ) (processor : Processor) (conditions : Conditions)
    (schedule : Schedule) (w : World σ) (sources : List (Source σ)) : Prop where
  first : ∃ remote, c.Enumerates w sources remote
  again : ∃ remote, c.Enumerates (c.run processor conditions schedule w).2 sources remote
  reprocess : c.settings.reprocess = false
  lasting : processor.Lasting
  notAbove : ¬c.settings.downloadDir.location w.files.cwd <+:
    c.settings.outputDir.location w.files.cwd
  notBelow : ¬c.settings.outputDir.location w.files.cwd <+:
    c.settings.downloadDir.location w.files.cwd
  paths : (sources.map (fun source =>
      (Document.ofSource c.settings source).stagingPlace w.files.cwd) ++
    sources.map fun source =>
      (Document.ofSource c.settings source).outputPlace w.files.cwd).Nodup

/-- Two sources of which the first one fails. -/
def firstFails : List (Source Unit) :=
  [.steady "x" (.error (.unavailable "x" .notFound)), .steady "a" (.ok ⟨[], .ok "one".toUTF8⟩)]

/-- An output directory whose path goes up from within the download directory. -/
def inward : Settings := ⟨⟨"d"⟩, ⟨"d/z/../../o"⟩, false, false, 1, false⟩

/-- On a detour runs are not incremental. A document that failed is skipped by the next run if
another one made the directories by which a result of it is found, and one that was processed is
processed again if the directories by which its result is found were cleaned up. -/
theorem reruns_on_detours :
    (Twice (.steady detour firstFails) usual (.steady .epoch) .inOrder ⟨oneResult, ()⟩ firstFails ∧
      ¬∃ os os', Incremental (.steady detour firstFails) usual usual (.steady .epoch)
        (.steady .epoch) .inOrder .inOrder ⟨oneResult, ()⟩ firstFails os os') ∧
    (Twice (.steady inward oneFails.dropLast) usual (.steady .epoch) .inOrder ⟨⟨.empty, []⟩, ()⟩
        oneFails.dropLast ∧
      ¬∃ os os', Incremental (.steady inward oneFails.dropLast) usual usual (.steady .epoch)
        (.steady .epoch) .inOrder .inOrder ⟨⟨.empty, []⟩, ()⟩ oneFails.dropLast os os') := by
  refine ⟨⟨⟨⟨(), rfl, rfl⟩, ⟨(), prepare_of_isOk (by decide +kernel), rfl⟩, rfl, lasting_usual,
    by decide +kernel, by decide +kernel, by decide +kernel⟩, ?_⟩,
    ⟨⟨(), rfl, rfl⟩, ⟨(), prepare_of_isOk (by decide +kernel), rfl⟩, rfl, lasting_usual,
    by decide +kernel, by decide +kernel, by decide +kernel⟩, ?_⟩
  · rintro ⟨os, os', h⟩
    exact h.attempts_again (by decide +kernel) (by decide +kernel)
  · rintro ⟨os, os', h⟩
    exact absurd (h.nothing_again (by decide +kernel)) (by decide +kernel)

end Connector

end Intake
