import Intake.Proofs.Files.Pruning
import Intake.Proofs.Run.Effects
import Intake.Proofs.Run.Moments
import Intake.Run.Runner

/-!
# What a run leaves behind

While a run goes on, a file in the download directory that was not there before is the
staged file of a task that has begun, and each such task removes it when it ends or is
given up. Two documents may stage at the same place, so what is said of a place never
names a single task. In the end nothing new is left, and pruning takes the directories
that were only made for staged files.
-/

namespace Intake

open Files

variable {σ : Type}

/-- Documents whose staged files stand directly in a download directory that does not hold
the output directory. -/
structure Orderly (s : Settings) (ds : List (Document σ)) (cwd : Location) : Prop where
  settings : ∀ d ∈ ds, d.settings = s
  names : ∀ d ∈ ds, Path.OrdinaryName (Document.stagedNameOf d.source)
  apart : ¬s.downloadDir.location cwd <+: s.outputDir.location cwd

namespace Orderly

variable {s : Settings} {ds : List (Document σ)} {cwd : Location} (h : Orderly s ds cwd)

include h

theorem stagingPlace_eq {d : Document σ} (hd : d ∈ ds) :
    d.stagingPlace cwd = s.downloadDir.location cwd ++ [Document.stagedNameOf d.source] := by
  rw [Document.stagingPlace_eq (h.names d hd), h.settings d hd]

theorem path_of_place {d d' : Document σ} (hd : d ∈ ds) (hd' : d' ∈ ds)
    (hplace : d.stagingPlace cwd = d'.stagingPlace cwd) : d.stagingPath = d'.stagingPath := by
  rw [h.stagingPlace_eq hd, h.stagingPlace_eq hd'] at hplace
  have hname : Document.stagedNameOf d.source = Document.stagedNameOf d'.source := by
    simpa using hplace
  rw [Document.stagingPath, Document.stagingPath, h.settings d hd, h.settings d' hd']
  exact congrArg s.downloadDir.join hname

/-- No result stands below the download directory. -/
theorem outputPlace_ne {d : Document σ} (hd : d ∈ ds) (name : String) (rest : Location) :
    s.downloadDir.location cwd ++ name :: rest ≠ d.outputPlace cwd := by
  intro heq
  have hout := d.outputPlace_eq cwd
  rw [h.settings d hd, ← heq] at hout
  refine h.apart ?_
  have hpre : s.downloadDir.location cwd <+:
      s.outputDir.location cwd ++ [Document.outputName d.locator] :=
    hout ▸ List.prefix_append _ _
  rcases List.prefix_concat_iff.mp hpre with hall | hpre
  · rw [← hall] at hout
    simp at hout
  · exact hpre

theorem stagingPlace_ne {d d' : Document σ} (hd : d ∈ ds) (hd' : d' ∈ ds) :
    d.stagingPlace cwd ≠ d'.outputPlace cwd := by
  rw [h.stagingPlace_eq hd]
  exact h.outputPlace_ne hd' _ []

end Orderly

/-! ## Files while tasks are pending -/

/-- What is at the place of a staged file was there before, or is gone, or will be removed by
a task that is pending. -/
def Accounted (before : FileSystem) (pending : Set Path) (fs : FileSystem) (d : Document σ) :
    Prop :=
  fs.content? (d.stagingPlace before.cwd) = before.content? (d.stagingPlace before.cwd) ∨
    fs.content? (d.stagingPlace before.cwd) = none ∨
      d.stagingPath ∈ pending ∧ fs.isFile d.stagingPath = true

theorem Accounted.of_content {before fs fs' : FileSystem} {pending pending' : Set Path}
    {d : Document σ} (h : Accounted before pending fs d)
    (hsub : d.stagingPath ∈ pending → d.stagingPath ∈ pending') (hbefore : fs.cwd = before.cwd)
    (hcwd : fs'.cwd = fs.cwd)
    (hkept : ∀ loc, fs.sight? loc = some .directory → fs'.sight? loc = some .directory)
    (hcontent : fs'.content? (d.stagingPlace before.cwd) =
      fs.content? (d.stagingPlace before.cwd)) : Accounted before pending' fs' d := by
  rw [Accounted, hcontent]
  refine h.imp_right fun h => h.imp_right fun ⟨hmem, hfile⟩ => ⟨hsub hmem, ?_⟩
  refine FileSystem.isFile_mono hcwd hkept ?_ hfile
  rw [Document.stagingPlace, ← hbefore] at hcontent
  rw [hcontent]
  exact FileSystem.content?_of_isFile hfile

/-- What the files are like while tasks are pending that may have staged something. -/
structure Clean (ds : List (Document σ)) (before : FileSystem) (pending : Set Path)
    (fs : FileSystem) : Prop where
  cwd : fs.cwd = before.cwd
  elsewhere : ∀ loc, (∀ d ∈ ds, loc ≠ d.stagingPlace before.cwd) →
    (∀ d ∈ ds, loc ≠ d.outputPlace before.cwd) → fs.content? loc = before.content? loc
  staging : ∀ d ∈ ds, Accounted before pending fs d
  kept : ∀ loc, (∀ d ∈ ds, loc ≠ d.stagingPlace before.cwd) →
    (before.content? loc).isSome = true → (fs.content? loc).isSome = true

namespace Clean

variable {s : Settings} {ds : List (Document σ)} {before fs fs' : FileSystem}
  {pending pending' : Set Path} {d : Document σ}

theorem of_same (hcwd : fs.cwd = before.cwd) (h : fs.content? = before.content?) :
    Clean ds before pending fs where
  cwd := hcwd
  elsewhere loc _ _ := by rw [h]
  staging d _ := Or.inl (by rw [h])
  kept loc _ hloc := by rwa [h]

theorem mono (h : Clean ds before pending fs) (hsub : pending ⊆ pending') :
    Clean ds before pending' fs where
  cwd := h.cwd
  elsewhere := h.elsewhere
  staging d hd := (h.staging d hd).of_content (fun hmem => hsub hmem) h.cwd rfl (fun _ h => h) rfl
  kept := h.kept

/-- Where a document waits, its staged file is one that it will remove. -/
theorem waits (horderly : Orderly s ds before.cwd) (h : Clean ds before pending fs)
    (hd : d ∈ ds) (hwaits : Task.Waits d fs fs') :
    Clean ds before (insert d.stagingPath pending) fs' where
  cwd := hwaits.touched.cwd.trans h.cwd
  elsewhere loc hstaging houtput := by
    rw [← h.elsewhere loc hstaging houtput]
    refine hwaits.touched.contents loc ?_
    rw [h.cwd]
    exact hstaging d hd
  staging d' hd' := by
    have haccounted (hcontent : fs'.content? (d'.stagingPlace before.cwd) =
        fs.content? (d'.stagingPlace before.cwd)) :=
      (h.staging d' hd').of_content (fun hmem => Set.mem_insert_of_mem d.stagingPath hmem) h.cwd
        hwaits.touched.cwd hwaits.touched.kept hcontent
    -- another document may stage at the same place, and then by the same path
    by_cases hplace : d'.stagingPlace before.cwd = d.stagingPlace before.cwd
    · rcases hwaits.staged with hsame | hstaged
      · exact haccounted (by rw [hsame])
      · rw [← horderly.path_of_place hd' hd hplace] at hstaged ⊢
        exact Or.inr (Or.inr ⟨Set.mem_insert _ _, hstaged⟩)
    · refine haccounted (hwaits.touched.contents _ ?_)
      rw [h.cwd]
      exact hplace
  kept loc hstaging hloc := hwaits.keeps.file loc (h.kept loc hstaging hloc)

/-- The making of a result changes no staged file. -/
theorem converts (horderly : Orderly s ds before.cwd) (h : Clean ds before pending fs)
    (hd : d ∈ ds) (hconverts : d.Converts fs fs') : Clean ds before pending fs' where
  cwd := hconverts.touched.cwd.trans h.cwd
  elsewhere loc hstaging houtput := by
    rw [← h.elsewhere loc hstaging houtput]
    refine hconverts.touched.contents loc ?_
    rw [h.cwd]
    exact houtput d hd
  staging d' hd' := by
    refine (h.staging d' hd').of_content id h.cwd hconverts.touched.cwd
      hconverts.touched.kept (hconverts.touched.contents _ ?_)
    rw [h.cwd]
    exact horderly.stagingPlace_ne hd' hd
  kept loc hstaging hloc := hconverts.keeps.file loc (h.kept loc hstaging hloc)

/-- After it was cleaned up, nothing is pending for a document. -/
theorem cleanUp (horderly : Orderly s ds before.cwd) (hretain : s.retain = false)
    (h : Clean ds before pending fs) (hd : d ∈ ds) :
    Clean ds before (pending \ {d.stagingPath}) (d.cleanUp fs) where
  cwd := (d.touched_cleanUp fs).cwd.trans h.cwd
  elsewhere loc hstaging houtput := by
    rw [← h.elsewhere loc hstaging houtput]
    refine (d.touched_cleanUp fs).contents loc ?_
    rw [h.cwd]
    exact hstaging d hd
  staging d' hd' := by
    have htouched := d.touched_cleanUp fs
    by_cases hplace : d'.stagingPlace before.cwd = d.stagingPlace before.cwd
    · rcases d.cleanUp_cases fs with ⟨hkept, heq⟩ | ⟨_, hremove⟩
      · rw [heq]
        rcases h.staging d' hd' with hsame | hnone | ⟨_, hfile⟩
        · exact Or.inl hsame
        · exact Or.inr (Or.inl hnone)
        · rw [horderly.path_of_place hd' hd hplace] at hfile
          rcases hkept with hkept | hkept
          · rw [horderly.settings d hd, hretain] at hkept
            cases hkept
          · rw [hkept] at hfile
            cases hfile
      · right
        left
        rw [hplace, Document.stagingPlace, ← h.cwd, FileSystem.content?,
          (FileSystem.sight?_removeFile hremove).2.2, Function.update_self]
    · refine (h.staging d' hd').of_content ?_ h.cwd htouched.cwd htouched.kept
        (htouched.contents _ ?_)
      · refine fun hmem => ⟨hmem, fun heq => hplace ?_⟩
        rw [Document.stagingPlace, Set.mem_singleton_iff.mp heq, Document.stagingPlace]
      · rw [h.cwd]
        exact hplace
  kept loc hstaging hloc := by
    rw [(d.touched_cleanUp fs).contents loc ?_]
    · exact h.kept loc hstaging hloc
    · rw [h.cwd]
      exact hstaging d hd

end Clean

/-! ## Moments -/

namespace Moment

/-- The paths of staged files that a task which has begun will remove. -/
def pending (m : Moment σ) : Set Path :=
  {p | ∃ t ∈ m.active, t.Begun ∧ t.document.stagingPath = p}

/-- Whether a path is the one of a staged file of a document that is not finished. -/
def Unfinished (m : Moment σ) (p : Path) : Prop :=
  (∃ d ∈ m.waiting, d.stagingPath = p) ∨ ∃ t ∈ m.active, t.document.stagingPath = p

/-- What holds at every moment of a run that keeps no staged files. -/
structure Tidy (s : Settings) (ds : List (Document σ)) (before : FileSystem) (m : Moment σ) :
    Prop where
  clean : Clean ds before m.pending m.world.files
  ready : m.world.files.Ready s.downloadDir
  active : ∀ t ∈ m.active, ∃ d ∈ ds, d.Akin t.document
  waiting : ∀ d ∈ m.waiting, d ∈ ds
  settled : ∀ d ∈ ds, m.world.files.isFile d.stagingPath = true → m.Unfinished d.stagingPath

variable {s : Settings} {ds : List (Document σ)} {before : FileSystem} {plan : Plan}
  {bound : Nat} {m m' : Moment σ}

theorem pending_cons (front back : List (Task σ)) (t : Task σ) (ds : List (Document σ))
    (w : World σ) (outcomes : List Outcome) :
    pending ⟨front ++ t :: back, ds, w, outcomes⟩ =
      pending ⟨front ++ back, ds, w, outcomes⟩ ∪
        {p | t.Begun ∧ t.document.stagingPath = p} := by
  ext p
  simp only [pending, Set.mem_ofPred_eq, Set.mem_union, List.mem_append, List.mem_cons]
  constructor
  · rintro ⟨t', hfront | rfl | hback, h⟩
    · exact Or.inl ⟨t', Or.inl hfront, h⟩
    · exact Or.inr h
    · exact Or.inl ⟨t', Or.inr hback, h⟩
  · rintro (⟨t', hfront | hback, h⟩ | h)
    · exact ⟨t', Or.inl hfront, h⟩
    · exact ⟨t', Or.inr (Or.inr hback), h⟩
    · exact ⟨t, Or.inr (Or.inl rfl), h⟩

/-- A staged file that a step of another document finds is found after it, and no other. -/
theorem isFile_other (horderly : Orderly s ds before.cwd) {fs fs' : FileSystem}
    {d d' : Document σ} (hd : d ∈ ds) (hd' : d' ∈ ds) (hcwd : fs.cwd = before.cwd)
    (hready : fs.Ready s.downloadDir) (hready' : fs'.Ready s.downloadDir)
    (htouched : Touched (d.places fs.cwd) (d.ways fs) fs fs')
    (hne : d'.stagingPath ≠ d.stagingPath) :
    fs'.isFile d'.stagingPath = fs.isFile d'.stagingPath := by
  have hplace : d'.stagingPlace fs.cwd ∉ d.places fs.cwd := by
    rw [hcwd]
    rintro (heq | heq)
    · exact hne (horderly.path_of_place hd' hd heq)
    · exact horderly.stagingPlace_ne hd' hd heq
  have hcontent := htouched.contents _ hplace
  rw [Document.stagingPlace] at hcontent
  rw [Document.stagingPath, horderly.settings d' hd'] at hcontent ⊢
  exact FileSystem.isFile_join_congr (horderly.names d' hd') hready hready' htouched.cwd hcontent

theorem ready_of_touched {files dirs : Set Location} {fs fs' : FileSystem} {p : Path}
    (htouched : Touched files dirs fs fs') (h : fs.Ready p) : fs'.Ready p :=
  h.imp_right (FileSystem.isDir_mono htouched.cwd htouched.kept)

theorem Tidy.takeUp {active : List (Task σ)} {d : Document σ} {waiting : List (Document σ)}
    {w : World σ} {outcomes : List Outcome}
    (h : Tidy s ds before ⟨active, d :: waiting, w, outcomes⟩) :
    Tidy s ds before ⟨active ++ [.fresh d], waiting, w, outcomes⟩ where
  clean := by
    refine h.clean.mono ?_
    rintro p ⟨t, ht, hbegun⟩
    exact ⟨t, List.mem_append_left _ ht, hbegun⟩
  ready := h.ready
  active t ht := by
    rcases List.mem_append.mp ht with ht | ht
    · exact h.active t ht
    · rw [List.mem_singleton.mp ht]
      exact ⟨d, h.waiting d List.mem_cons_self, .refl d⟩
  waiting d' hd' := h.waiting d' (List.mem_cons_of_mem _ hd')
  settled d' hd' hfile := by
    rcases h.settled d' hd' hfile with ⟨d'', hd'', hpath⟩ | ⟨t, ht, hpath⟩
    · rcases List.mem_cons.mp hd'' with rfl | hd''
      · exact Or.inr ⟨.fresh d'', List.mem_append_right _ (List.mem_singleton.mpr rfl), hpath⟩
      · exact Or.inl ⟨d'', hd'', hpath⟩
    · exact Or.inr ⟨t, List.mem_append_left _ ht, hpath⟩

theorem Tidy.goOn {front back : List (Task σ)} {t t' : Task σ} {waiting : List (Document σ)}
    {w w' : World σ} {outcomes : List Outcome} (horderly : Orderly s ds before.cwd)
    (hstep : t.step plan w = (.waiting t', w'))
    (h : Tidy s ds before ⟨front ++ t :: back, waiting, w, outcomes⟩) :
    Tidy s ds before ⟨front ++ t' :: back, waiting, w', outcomes⟩ := by
  obtain ⟨hakin, hbegun, hwaits⟩ := Task.waits_of_step hstep
  obtain ⟨d, hd, hdakin⟩ := h.active t (by simp)
  have hpath : t'.document.stagingPath = t.document.stagingPath := hakin.stagingPath
  have hwaits := hwaits.of_akin hdakin
  have hready := ready_of_touched hwaits.touched h.ready
  refine ⟨?_, hready, ?_, h.waiting, ?_⟩
  · refine (h.clean.waits horderly hd hwaits).mono ?_
    rw [pending_cons, pending_cons]
    rintro p (rfl | hfront | ⟨_, rfl⟩)
    · exact Or.inr ⟨hbegun, hpath.trans hdakin.stagingPath⟩
    · exact Or.inl hfront
    · exact Or.inr ⟨hbegun, hpath⟩
  · intro t₀ ht₀
    rcases mem_turn.mp ht₀ with rfl | ht₀
    · exact ⟨d, hd, hdakin.trans hakin⟩
    · exact h.active t₀ (mem_turn.mpr (Or.inr ht₀))
  · intro d' hd' hfile
    by_cases hsame : d'.stagingPath = d.stagingPath
    · refine Or.inr ⟨t', by simp, ?_⟩
      rw [hpath, hdakin.stagingPath, hsame]
    · have hbefore := isFile_other horderly hd hd' h.clean.cwd h.ready hready
        (hwaits.touched.mono (Set.singleton_subset_iff.mpr (Or.inl rfl)) (Set.Subset.refl _))
        hsame
      rcases h.settled d' hd' (hbefore ▸ hfile) with hwaiting | ⟨t₀, ht₀, hpath₀⟩
      · exact Or.inl hwaiting
      · rcases mem_turn.mp ht₀ with rfl | ht₀
        · exact Or.inr ⟨t', by simp, hpath.trans hpath₀⟩
        · exact Or.inr ⟨t₀, mem_turn.mpr (Or.inr ht₀), hpath₀⟩

/-- The end of a task leaves only what the other tasks are going to remove. -/
theorem clean_ends {fs fs' : FileSystem} {pending : Set Path} {d : Document σ}
    (horderly : Orderly s ds before.cwd) (hretain : s.retain = false) (hd : d ∈ ds)
    (h : Clean ds before pending fs) (hends : Task.Ends d fs fs') :
    Clean ds before (pending \ {d.stagingPath}) fs' := by
  obtain ⟨staged, made, hstaged, hmade, rfl⟩ := hends
  have hmade := (h.waits horderly hd hstaged).converts horderly hd hmade
  refine (hmade.cleanUp horderly hretain hd).mono ?_
  rintro p ⟨rfl | hp, hne⟩
  · exact absurd rfl hne
  · exact ⟨hp, hne⟩

theorem isFile_ends {fs fs' : FileSystem} {d : Document σ} (hretain : d.settings.retain = false)
    (hends : Task.Ends d fs fs') : fs'.isFile d.stagingPath = false := by
  obtain ⟨_, made, _, _, rfl⟩ := hends
  exact Document.isFile_cleanUp hretain made

theorem Tidy.finish {front back : List (Task σ)} {t : Task σ} {waiting : List (Document σ)}
    {w w' : World σ} {outcomes : List Outcome} {ending : Ending Outcome}
    (outcomes' : List Outcome) (horderly : Orderly s ds before.cwd) (hretain : s.retain = false)
    (hstep : t.step plan w = (.ended ending, w'))
    (h : Tidy s ds before ⟨front ++ t :: back, waiting, w, outcomes⟩) :
    Tidy s ds before ⟨front ++ back, waiting, w', outcomes'⟩ := by
  obtain ⟨d, hd, hdakin⟩ := h.active t (by simp)
  have hends := (Task.ends_of_step hstep).of_akin hdakin
  have hready := ready_of_touched hends.touched h.ready
  refine ⟨?_, hready, ?_, h.waiting, ?_⟩
  · refine (clean_ends horderly hretain hd h.clean hends).mono ?_
    rw [pending_cons]
    rintro p ⟨hfront | ⟨_, rfl⟩, hne⟩
    · exact hfront
    · exact absurd hdakin.stagingPath hne
  · intro t₀ ht₀
    exact h.active t₀ (mem_turn.mpr (Or.inr ht₀))
  · intro d' hd' hfile
    have hnone := isFile_ends (horderly.settings d hd ▸ hretain) hends
    have hne : d'.stagingPath ≠ d.stagingPath := by
      intro heq
      rw [heq, hnone] at hfile
      cases hfile
    have hbefore := isFile_other horderly hd hd' h.clean.cwd h.ready hready hends.touched hne
    rcases h.settled d' hd' (hbefore ▸ hfile) with hwaiting | ⟨t₀, ht₀, hpath₀⟩
    · exact Or.inl hwaiting
    · rcases mem_turn.mp ht₀ with rfl | ht₀
      · exact absurd (hpath₀.symm.trans hdakin.stagingPath) hne
      · exact Or.inr ⟨t₀, ht₀, hpath₀⟩

theorem tidy_next (horderly : Orderly s ds before.cwd) (hretain : s.retain = false)
    (hnext : Next plan bound m m') (h : Tidy s ds before m) : Tidy s ds before m' := by
  cases hnext with
  | takeUp _ => exact h.takeUp
  | goOn hstep => exact h.goOn horderly hstep
  | finish hstep => exact h.finish _ horderly hretain hstep

theorem tidy_leads (horderly : Orderly s ds before.cwd) (hretain : s.retain = false)
    (hleads : Leads plan bound m m') (h : Tidy s ds before m) : Tidy s ds before m' :=
  hleads.invariant (fun _ _ hnext hm => tidy_next horderly hretain hnext hm) h

/-! ## Giving tasks up -/

theorem clean_abandonAll (horderly : Orderly s ds before.cwd) (hretain : s.retain = false)
    {ts : List (Task σ)} (hts : ∀ t ∈ ts, ∃ d ∈ ds, d.Akin t.document) :
    ∀ {fs : FileSystem},
      Clean ds before {p | ∃ t ∈ ts, t.Begun ∧ t.document.stagingPath = p} fs →
        Clean ds before ∅ (Queue.abandonAll fs ts) := by
  induction ts with
  | nil =>
      intro fs h
      refine h.mono ?_
      rintro p ⟨t, ht, _⟩
      cases ht
  | cons t rest ih =>
      intro fs h
      have hrest : ∀ t ∈ rest, ∃ d ∈ ds, d.Akin t.document :=
        fun t ht => hts t (List.mem_cons_of_mem _ ht)
      refine ih hrest ?_
      obtain ⟨d, hd, hakin⟩ := hts t List.mem_cons_self
      -- a task that has begun takes its own path from those that are pending
      have hbegun (d' : Document σ) (hd' : d.Akin d') (ht : t.document = d') :
          Clean ds before {p | ∃ t ∈ rest, t.Begun ∧ t.document.stagingPath = p}
            (d'.cleanUp fs) := by
        rw [hd'.cleanUp]
        refine (h.cleanUp horderly hretain hd).mono ?_
        rintro p ⟨⟨t', ht', hbegun, hpath⟩, hne⟩
        rcases List.mem_cons.mp ht' with rfl | ht'
        · refine absurd ?_ hne
          rw [← hpath, ht]
          exact hd'.stagingPath
        · exact ⟨t', ht', hbegun, hpath⟩
      cases t with
      | fresh d' =>
          refine h.mono ?_
          rintro p ⟨t', ht', hbegun, hpath⟩
          rcases List.mem_cons.mp ht' with rfl | ht'
          · cases hbegun
          · exact ⟨t', ht', hbegun, hpath⟩
      | downloading d' => exact hbegun d' hakin rfl
      | probing d' => exact hbegun d' hakin rfl

theorem ready_abandonAll {p : Path} (ts : List (Task σ)) :
    ∀ {fs : FileSystem}, fs.Ready p → (Queue.abandonAll fs ts).Ready p := by
  induction ts with
  | nil => exact fun h => h
  | cons t rest ih =>
      intro fs h
      cases t with
      | fresh d => exact @ih fs h
      | downloading d => exact ih (ready_of_touched (d.touched_cleanUp fs) h)
      | probing d => exact ih (ready_of_touched (d.touched_cleanUp fs) h)

/-- **However a run ends, no task is left that has to clean up.** -/
theorem clean_of_endsAs (horderly : Orderly s ds before.cwd) (hretain : s.retain = false)
    {ending : Ending (List Outcome)} {w : World σ} (hm : Tidy s ds before m)
    (hends : EndsAs plan bound m (ending, w)) :
    Clean ds before ∅ w.files ∧ w.files.Ready s.downloadDir ∧
      ∀ outcomes, ending = .finished outcomes →
        ∀ d ∈ ds, w.files.isFile d.stagingPath = false := by
  cases hends with
  | finished hleads =>
      have hend := tidy_leads horderly hretain hleads hm
      refine ⟨hend.clean.mono ?_, hend.ready, ?_⟩
      · rintro p ⟨t, ht, _⟩
        cases ht
      · intro _ _ d hd
        rw [Bool.eq_false_iff]
        intro hfile
        rcases hend.settled d hd hfile with ⟨_, hmem, _⟩ | ⟨_, hmem, _⟩ <;> cases hmem
  | @brokeDown front back t waiting w₀ w₁ outcomes message hleads hstep =>
      -- the task that broke down cleaned up as one that ends; the others are given up
      have hend := (tidy_leads horderly hretain hleads hm).finish [] horderly hretain hstep
      refine ⟨clean_abandonAll horderly hretain hend.active hend.clean, ?_, ?_⟩
      · exact ready_abandonAll _ hend.ready
      · intro _ hfinished
        cases hfinished

/-! ## Runs that keep staged files -/

/-- All documents of a moment have the same settings. -/
structure Uniform (s : Settings) (m : Moment σ) : Prop where
  active : ∀ t ∈ m.active, t.document.settings = s
  waiting : ∀ d ∈ m.waiting, d.settings = s

theorem uniform_next (hnext : Next plan bound m m') (h : Uniform s m) : Uniform s m' := by
  cases hnext with
  | @takeUp active d waiting w outcomes _ =>
      refine ⟨?_, fun d' hd' => h.waiting d' (List.mem_cons_of_mem _ hd')⟩
      intro t ht
      rcases List.mem_append.mp ht with ht | ht
      · exact h.active t ht
      · rw [List.mem_singleton.mp ht]
        exact h.waiting d List.mem_cons_self
  | @goOn front back t t' waiting w w' outcomes hstep =>
      refine ⟨?_, h.waiting⟩
      intro t₀ ht₀
      rcases mem_turn.mp ht₀ with rfl | ht₀
      · rw [(Task.waits_of_step hstep).1.settings]
        exact h.active t (by simp)
      · exact h.active t₀ (mem_turn.mpr (Or.inr ht₀))
  | @finish front back t waiting w w' outcomes outcome hstep =>
      exact ⟨fun t₀ ht₀ => h.active t₀ (mem_turn.mpr (Or.inr ht₀)), h.waiting⟩

theorem uniform_leads (hleads : Leads plan bound m m') (h : Uniform s m) : Uniform s m' :=
  hleads.invariant (fun _ _ hnext hm => uniform_next hnext hm) h

theorem keeps_ends {d : Document σ} {fs fs' : FileSystem} (hretain : d.settings.retain = true)
    (hends : Task.Ends d fs fs') : Keeps fs fs' := by
  obtain ⟨staged, made, hstaged, hmade, rfl⟩ := hends
  rw [Document.cleanUp_of_retain hretain]
  exact hstaged.keeps.trans hmade.keeps

theorem keeps_next (hretain : s.retain = true) (hm : Uniform s m)
    (hnext : Next plan bound m m') : Keeps m.world.files m'.world.files := by
  cases hnext with
  | takeUp _ => exact .refl _
  | goOn hstep => exact (Task.waits_of_step hstep).2.2.keeps
  | @finish front back t waiting w w' outcomes outcome hstep =>
      have hsettings := hm.active t (by simp)
      exact keeps_ends (hsettings ▸ hretain) (Task.ends_of_step hstep)

theorem keeps_leads (hretain : s.retain = true) (hm : Uniform s m)
    (hleads : Leads plan bound m m') : Keeps m.world.files m'.world.files := by
  induction hleads with
  | refl => exact .refl _
  | tail hbefore hnext ih =>
      exact ih.trans (keeps_next hretain (uniform_leads hbefore hm) hnext)

theorem abandonAll_of_retain (hretain : s.retain = true) {ts : List (Task σ)}
    (hts : ∀ t ∈ ts, t.document.settings = s) (fs : FileSystem) :
    Queue.abandonAll fs ts = fs := by
  induction ts with
  | nil => rfl
  | cons t rest ih =>
      have hrest := ih fun t ht => hts t (List.mem_cons_of_mem _ ht)
      have ht : t.document.settings.retain = true := hts t List.mem_cons_self ▸ hretain
      rw [Queue.abandonAll, List.foldl_cons]
      cases t with
      | fresh d => exact hrest
      | downloading d =>
          rw [Task.abandon, Document.cleanUp_of_retain (show d.settings.retain = true from ht)]
          exact hrest
      | probing d =>
          rw [Task.abandon, Document.cleanUp_of_retain (show d.settings.retain = true from ht)]
          exact hrest

theorem keeps_of_endsAs (hretain : s.retain = true) (hm : Uniform s m)
    {ending : Ending (List Outcome)} {w : World σ} (hends : EndsAs plan bound m (ending, w)) :
    Keeps m.world.files w.files := by
  cases hends with
  | finished hleads => exact keeps_leads hretain hm hleads
  | @brokeDown front back t waiting w₀ w₁ outcomes message hleads hstep =>
      have huniform := uniform_leads hleads hm
      have hkeeps := keeps_leads hretain hm hleads
      have hothers : ∀ t ∈ front ++ back, t.document.settings = s :=
        fun t₀ ht₀ => huniform.active t₀ (mem_turn.mpr (Or.inr ht₀))
      have hsettings := huniform.active t (by simp)
      show Keeps m.world.files (Queue.abandonAll w₁.files (front ++ back))
      rw [abandonAll_of_retain hretain hothers]
      exact hkeeps.trans (keeps_ends (hsettings ▸ hretain) (Task.ends_of_step hstep))

end Moment

namespace Connector

variable (c : Connector σ) (processor : Processor) (conditions : Conditions) (schedule : Schedule)
  (w : World σ)

/-- What a run that keeps no staged files may have changed when it is over. -/
structure NoResidue (result : Ending (Except Fault Summary)) (after : FileSystem) : Prop where
  /-- No file is new or changed but the results; so no temporary file is left. -/
  files : ∀ loc content, after.content? loc = some content →
    w.files.content? loc = some content ∨
      ∃ d ∈ c.enumerated w.remote, loc = d.outputPlace w.files.cwd
  /-- Below the download directory no file is new or changed. -/
  below : ∀ name rest content,
    after.content? (c.settings.downloadDir.location w.files.cwd ++ name :: rest) =
      some content →
    w.files.content? (c.settings.downloadDir.location w.files.cwd ++ name :: rest) =
      some content
  /-- No file is missing but staged files of the documents. -/
  missing : ∀ loc, (w.files.content? loc).isSome = true → after.content? loc = none →
    ∃ d ∈ c.enumerated w.remote, loc = d.stagingPlace w.files.cwd
  /-- No empty directory is left at or below the download directory, wherever its path leads to
  one, but for itself where its path is none by which a directory can be removed. -/
  directories : ((c.prepare w.files).1 = .ok () ∧ c.settings.downloadDir.text ≠ "") ∨
      after.isDir c.settings.downloadDir = true →
    ∀ loc, c.settings.downloadDir.location w.files.cwd <+: loc →
      after.sight? loc = some .directory →
      after.HoldsFile loc ∨
        FileSystem.Spared c.settings.downloadDir
          (c.settings.downloadDir.location w.files.cwd) loc
  /-- After a run with totals no document has a staged file. -/
  finished : ∀ summary, result = .finished (.ok summary) →
    ∀ d ∈ c.enumerated w.remote, after.isFile d.stagingPath = false

variable {c w}

/-- What the files are like when the work is over, before the connector is cleaned up. -/
theorem clean_workOn
    (horderly : Orderly c.settings (c.enumerated w.remote) w.files.cwd)
    (hretain : c.settings.retain = false) :
    Clean (c.enumerated w.remote) w.files ∅ (c.workOn processor conditions schedule w).2.files ∧
      ((c.prepare w.files).1 = .ok () →
        (c.workOn processor conditions schedule w).2.files.Ready c.settings.downloadDir) ∧
      ∀ summary, (c.workOn processor conditions schedule w).1 = .finished (.ok summary) →
        ∀ d ∈ c.enumerated w.remote,
          (c.workOn processor conditions schedule w).2.files.isFile d.stagingPath = false := by
  have htouched := c.touched_prepare w.files
  have hsame : (c.prepare w.files).2.content? = w.files.content? :=
    funext fun loc => htouched.contents loc (Set.notMem_empty loc)
  rcases c.workOn_cases processor conditions schedule w with
    ⟨_, ⟨f, hresult⟩, hfiles⟩ | ⟨m, ending, w', hstart, hends, heq⟩
  · rw [hfiles, hresult]
    exact ⟨.of_same htouched.cwd hsame, ready_of_prepare, by simp⟩
  · obtain ⟨hprepare, hactive, hwaiting, hfiles, _⟩ := start_eq_some hstart
    have htidy : Moment.Tidy c.settings (c.enumerated w.remote) w.files m := by
      refine ⟨?_, ?_, ?_, ?_, ?_⟩
      · rw [hfiles]
        exact .of_same htouched.cwd hsame
      · rw [hfiles]
        exact ready_of_prepare hprepare
      · rw [hactive]
        intro t ht
        cases ht
      · rw [hwaiting]
        exact fun d hd => hd
      · exact fun d hd _ => Or.inl ⟨d, hwaiting ▸ hd, rfl⟩
    obtain ⟨hclean, hready, hnone⟩ := Moment.clean_of_endsAs horderly hretain htidy hends
    rw [heq]
    refine ⟨hclean, fun _ => hready, ?_⟩
    intro summary hsummary
    cases ending with
    | brokeDown message => cases hsummary
    | finished outcomes => exact hnone outcomes rfl

/-- When no task is pending, a file is one that was there before, or a result. -/
theorem old_or_result {ds : List (Document σ)} {before fs : FileSystem}
    (hclean : Clean ds before ∅ fs) {loc : Location} {content : ByteArray}
    (hloc : fs.content? loc = some content) :
    before.content? loc = some content ∨ ∃ d ∈ ds, loc = d.outputPlace before.cwd := by
  by_cases hstaging : ∃ d ∈ ds, loc = d.stagingPlace before.cwd
  · obtain ⟨d, hd, heq⟩ := hstaging
    rw [heq] at hloc ⊢
    rcases hclean.staging d hd with hsame | hgone | ⟨hmem, _⟩
    · exact Or.inl (hsame ▸ hloc)
    · rw [hgone] at hloc
      cases hloc
    · cases hmem
  · by_cases houtput : ∃ d ∈ ds, loc = d.outputPlace before.cwd
    · exact Or.inr houtput
    · left
      rw [← hclean.elsewhere loc (fun d hd heq => hstaging ⟨d, hd, heq⟩)
        (fun d hd heq => houtput ⟨d, hd, heq⟩), hloc]

theorem noResidue_prune {result : Ending (Except Fault Summary)} {fs : FileSystem}
    (horderly : Orderly c.settings (c.enumerated w.remote) w.files.cwd)
    (hclean : Clean (c.enumerated w.remote) w.files ∅ fs)
    (hready : (c.prepare w.files).1 = .ok () → fs.Ready c.settings.downloadDir)
    (hnone : ∀ summary, result = .finished (.ok summary) →
      ∀ d ∈ c.enumerated w.remote, fs.isFile d.stagingPath = false) :
    NoResidue c w result (fs.pruneAt c.settings.downloadDir).2 := by
  have hcwd := fs.cwd_pruneAt c.settings.downloadDir
  refine ⟨?_, ?_, ?_, ?_, ?_⟩
  · intro loc content hloc
    rw [FileSystem.content?_pruneAt] at hloc
    exact old_or_result hclean hloc
  · intro name rest content hloc
    rw [FileSystem.content?_pruneAt] at hloc
    rcases old_or_result hclean hloc with hbefore | ⟨d, hd, heq⟩
    · exact hbefore
    · exact absurd heq (horderly.outputPlace_ne hd name rest)
  · intro loc hbefore hafter
    rw [FileSystem.content?_pruneAt] at hafter
    by_contra hstaging
    have hkept := hclean.kept loc (fun d hd heq => hstaging ⟨d, hd, heq⟩) hbefore
    rw [hafter] at hkept
    cases hkept
  · intro hreach loc hbelow hdir
    have hisDir : fs.isDir c.settings.downloadDir = true := by
      rcases hreach with ⟨hprepare, htext⟩ | hafter
      · exact (hready hprepare).resolve_left htext
      · exact FileSystem.isDir_mono hcwd.symm (fun _ h => FileSystem.dir_of_pruneAt h) hafter
    obtain ⟨root, hlocate, hroot⟩ := FileSystem.isDir_iff.mp hisDir
    have hplace := FileSystem.location_of_locate hlocate
    rw [hclean.cwd] at hplace
    rw [← hplace] at hbelow ⊢
    exact FileSystem.holdsFile_of_dir hlocate hroot hbelow hdir
  · intro summary hsummary d hd
    have hbefore := hnone summary hsummary d hd
    rw [Bool.eq_false_iff] at hbefore ⊢
    intro hfile
    refine hbefore (FileSystem.isFile_mono hcwd.symm (fun _ h => FileSystem.dir_of_pruneAt h) ?_
      hfile)
    rw [← FileSystem.content?_pruneAt fs c.settings.downloadDir]
    exact FileSystem.content?_of_isFile hfile

theorem uniform_start {start : Moment σ} (hstart : c.start w = some start) :
    Moment.Uniform c.settings start := by
  obtain ⟨_, hactive, hwaiting, _⟩ := start_eq_some hstart
  constructor
  · rw [hactive]
    intro t ht
    cases ht
  · rw [hwaiting]
    exact fun d hd => settings_of_enumerated hd

theorem keeps_workOn (hretain : c.settings.retain = true) :
    Keeps w.files (c.workOn processor conditions schedule w).2.files := by
  have htouched := (c.touched_prepare w.files).keeps fun loc hloc => absurd hloc (by simp)
  rcases c.workOn_cases processor conditions schedule w with
    ⟨_, _, hfiles⟩ | ⟨start, ending, w', hstart, hends, heq⟩
  · rw [hfiles]
    exact htouched
  · rw [heq]
    refine htouched.trans ?_
    rw [← (start_eq_some hstart).2.2.2.1]
    exact Moment.keeps_of_endsAs hretain (uniform_start hstart) hends

/-- **A run leaves no residue.** However a run ends and however its documents take turns: if
staged files are not kept and the output directory is not in the download directory, nothing
of the run is left in the download directory but what was missing or there before; if they
are kept, nothing that is there at any moment is taken away later, also by a run that breaks
down. -/
theorem run_leaves_no_residue (c : Connector σ) (processor : Processor) (conditions : Conditions)
    (schedule : Schedule) (w : World σ)
    (hnames : ∀ d ∈ c.enumerated w.remote,
      Path.OrdinaryName (Document.stagedNameOf d.source)) :
    (c.settings.retain = false →
      ¬c.settings.downloadDir.location w.files.cwd <+:
        c.settings.outputDir.location w.files.cwd →
      NoResidue c w (c.run processor conditions schedule w).1
        (c.run processor conditions schedule w).2.files) ∧
    (c.settings.retain = true →
      (∀ start m m', c.start w = some start →
        Moment.Leads (c.plan processor conditions) c.bound start m →
        Moment.Leads (c.plan processor conditions) c.bound m m' →
        Keeps m.world.files m'.world.files) ∧
      (∀ start m ending w', c.start w = some start →
        Moment.Leads (c.plan processor conditions) c.bound start m →
        Moment.EndsAs (c.plan processor conditions) c.bound m (ending, w') →
        Keeps m.world.files (c.cleanUp w'.files)) ∧
      Keeps w.files (c.run processor conditions schedule w).2.files) := by
  constructor
  · intro hretain hapart
    have horderly : Orderly c.settings (c.enumerated w.remote) w.files.cwd :=
      ⟨fun d hd => settings_of_enumerated hd, hnames, hapart⟩
    obtain ⟨hclean, hready, hnone⟩ :=
      clean_workOn processor conditions schedule horderly hretain
    rw [run]
    simp only [cleanUp, hretain, Bool.false_eq_true, if_false]
    exact noResidue_prune horderly hclean hready hnone
  · intro hretain
    refine ⟨?_, ?_, ?_⟩
    · intro start m m' hstart hm hm'
      have huniform := Moment.uniform_leads hm (uniform_start hstart)
      exact Moment.keeps_leads hretain huniform hm'
    · intro start m ending w' hstart hm hends
      have huniform := Moment.uniform_leads hm (uniform_start hstart)
      simp only [cleanUp, hretain, if_true]
      exact Moment.keeps_of_endsAs hretain huniform hends
    · rw [run]
      simp only [cleanUp, hretain, if_true]
      exact keeps_workOn processor conditions schedule hretain

/-- A connector of one source. -/
def oneSource : Connector Unit :=
  .steady (.within ⟨"/d"⟩ ⟨"/o"⟩) [.steady "a" (.ok ⟨[], .ok "one".toUTF8⟩)]

/-- A tree with a file in a download directory. -/
def oneFile : FileSystem := ⟨.dir [("d", .dir [("kept", .file "kept".toUTF8)])], []⟩

theorem run_leaves_no_residue_oneSource :
    (∀ d ∈ oneSource.enumerated (), Path.OrdinaryName (Document.stagedNameOf d.source)) ∧
      NoResidue oneSource ⟨oneFile, ()⟩
        (oneSource.run (fun _ _ _ => .brokeDown "gone") (.steady .epoch) .inOrder ⟨oneFile, ()⟩).1
        (oneSource.run (fun _ _ _ => .brokeDown "gone") (.steady .epoch) .inOrder
          ⟨oneFile, ()⟩).2.files := by
  have hnames : ∀ d ∈ oneSource.enumerated (),
      Path.OrdinaryName (Document.stagedNameOf d.source) := by decide +kernel
  exact ⟨hnames,
    (run_leaves_no_residue oneSource _ (.steady .epoch) .inOrder ⟨oneFile, ()⟩ hnames).1 rfl
    (by decide +kernel)⟩

end Connector

end Intake
