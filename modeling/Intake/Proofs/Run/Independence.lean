import Intake.Proofs.Files.Pruning
import Intake.Proofs.Run.Moments
import Intake.Proofs.Run.Shadows
import Intake.Proofs.Run.Totals
import Mathlib.Data.List.Nodup

/-!
# Documents do not disturb each other

Beside each task of a run goes a shadow: the tree and the remote system in which its
document is worked on alone. A step of the task is a step of its shadow, and a step of
another task changes nothing that the shadow has to do with. So whatever the schedule,
each document comes to the outcome and the result that it comes to alone.
-/

namespace Intake

open Files

variable {σ : Type}

/-- The document as it was at first. -/
def Document.renew (d : Document σ) : Document σ := .ofSource d.settings d.source

theorem Document.akin_renew (d : Document σ) : d.Akin d.renew := ⟨rfl, rfl⟩

theorem Document.Akin.renew {d d' : Document σ} (h : d.Akin d') : d'.renew = d.renew := by
  rw [Document.renew, Document.renew, h.source, h.settings]

/-- The outcome that a document comes to alone. -/
def Document.outcomeAlone (plan : Plan) (before : World σ) (d : Document σ) : Outcome :=
  match (d.work plan before).1 with
  | .finished outcome => outcome
  | .brokeDown _ => .skipped d.locator

theorem Document.outcomeAlone_eq {plan : Plan} {before : World σ} {d : Document σ}
    {outcome : Outcome} (h : (d.work plan before).1 = .finished outcome) :
    d.outcomeAlone plan before = outcome := by
  rw [outcomeAlone, h]

theorem Document.initial_of_sources (s : Settings) (sources : List (Source σ)) :
    ∀ d ∈ sources.map (Document.ofSource s), d.renew = d ∧ d.settings = s := by
  intro d hd
  obtain ⟨source, _, rfl⟩ := List.mem_map.mp hd
  exact ⟨rfl, rfl⟩

/-- Documents whose results have different names have different locators. -/
theorem Document.nodup_locators {ds : List (Document σ)}
    (h : (ds.map fun d => Document.outputName d.locator).Nodup) :
    (ds.map (·.locator)).Nodup := by
  have hmap : ds.map (fun d => Document.outputName d.locator) =
      (ds.map (·.locator)).map Document.outputName := by
    simp only [List.map_map, Function.comp_def]
  rw [hmap] at h
  exact h.of_map

/-- Documents with places of their own, in two directories that stand apart. -/
structure Separate (s : Settings) (ds : List (Document σ)) (before : FileSystem) : Prop where
  apart : Apart before s
  names : ∀ d ∈ ds, Path.OrdinaryName (Document.stagedNameOf d.source)
  staged : (ds.map fun d => Document.stagedNameOf d.source).Nodup
  results : (ds.map fun d => Document.outputName d.locator).Nodup

/-- Whether a document is one of some documents of a run, of which more may be known by now. -/
def Document.Among (s : Settings) (ds : List (Document σ)) (d : Document σ) : Prop :=
  d.renew ∈ ds ∧ d.settings = s

namespace Separate

variable {s : Settings} {ds : List (Document σ)} {before : FileSystem} {d d' : Document σ}

theorem placed (h : Separate s ds before) (hd : d.Among s ds) : d.Placed before where
  apart := hd.2 ▸ h.apart
  name := h.names d.renew hd.1

theorem disjoint (h : Separate s ds before) (hd : d.Among s ds) (hd' : d'.Among s ds)
    (hne : d'.locator ≠ d.locator) : ∀ loc ∈ d'.places before.cwd, loc ∉ d.places before.cwd := by
  have hrenew : d'.renew ≠ d.renew := by
    intro heq
    refine hne ?_
    rw [← d'.akin_renew.locator, heq, d.akin_renew.locator]
  have hstaging := (h.placed hd).stagingPlace_eq before.cwd
  have hstaging' := (h.placed hd').stagingPlace_eq before.cwd
  have houtput := d.outputPlace_eq before.cwd
  have houtput' := d'.outputPlace_eq before.cwd
  rw [hd.2] at hstaging houtput
  rw [hd'.2] at hstaging' houtput'
  -- a staged file and a result are in directories of which neither is the other one
  have hcross {name name' : String} :
      s.downloadDir.location before.cwd ++ [name] ≠ s.outputDir.location before.cwd ++ [name'] := by
    intro heq
    exact h.apart.notAbove ((List.append_inj' heq rfl).1 ▸ List.prefix_rfl)
  rintro loc (heq | heq) (heq' | heq')
  · rw [heq, hstaging', hstaging] at heq'
    have hname := List.singleton_inj.mp (List.append_cancel_left heq')
    exact hrenew (List.inj_on_of_nodup_map h.staged hd'.1 hd.1 hname)
  · rw [heq, hstaging', Set.mem_singleton_iff, houtput] at heq'
    exact hcross heq'
  · rw [Set.mem_singleton_iff.mp heq, houtput', hstaging] at heq'
    exact hcross heq'.symm
  · rw [Set.mem_singleton_iff.mp heq, houtput', Set.mem_singleton_iff, houtput] at heq'
    have hname := List.singleton_inj.mp (List.append_cancel_left heq')
    exact hrenew (List.inj_on_of_nodup_map h.results hd'.1 hd.1 hname)

theorem locators (h : Separate s ds before) : (ds.map (·.locator)).Nodup :=
  Document.nodup_locators h.results

end Separate

/-! ## Tasks and their shadows -/

/-- Whether a shadow that goes on alone comes to what the document of a task comes to alone. -/
def Followed (plan : Plan) (before : World σ) (history : List (Request σ)) (fs : FileSystem)
    (t : Task σ) : Prop :=
  ∃ shadow, Alike before.files t.document fs shadow ∧ t.Fit shadow ∧
    t.alone plan ⟨shadow, Request.sendAll before.remote (Request.own t.document.locator history)⟩ =
      t.document.renew.work plan before

/-- A document that came to the outcome and the result that it comes to alone. -/
structure Settled (plan : Plan) (before : World σ) (fs : FileSystem) (d : Document σ)
    (outcome : Outcome) : Prop where
  ending : (d.work plan before).1 = .finished outcome
  named : outcome.locator = d.locator
  result : fs.sight? (d.outputPlace before.files.cwd) =
    (d.work plan before).2.files.sight? (d.outputPlace before.files.cwd)

/-- What holds of the tasks that are not finished, and of the documents that are. -/
structure Going (s : Settings) (ds : List (Document σ)) (plan : Plan) (before : World σ)
    (done : List (Document σ × Outcome)) (history : List (Request σ)) (tasks : List (Task σ))
    (w : World σ) : Prop where
  initial : ∀ d ∈ ds, d.renew = d ∧ d.settings = s
  remote : w.remote = Request.sendAll before.remote history
  requests : ∀ r ∈ history, r.source ∈ ds.map (·.source)
  clear : Clear before.files s w.files
  ready : w.files.Ready s.downloadDir
  followed : ∀ t ∈ tasks, Followed plan before history w.files t
  settled : ∀ a ∈ done, Settled plan before w.files a.1 a.2

/-- The documents of a run, each of which is finished or has a task, with what holds of them. -/
structure Faithful (s : Settings) (ds : List (Document σ)) (plan : Plan) (before : World σ)
    (done : List (Document σ × Outcome)) (history : List (Request σ)) (tasks : List (Task σ))
    (w : World σ) : Prop extends Going s ds plan before done history tasks w where
  everyone : (done.map (·.1) ++ tasks.map (·.document.renew)).Perm ds

section Steps

variable {s : Settings} {ds : List (Document σ)} {plan : Plan} {before w w' : World σ}
  {done : List (Document σ × Outcome)} {history requests : List (Request σ)}
  {tasks front back : List (Task σ)} {t t' t₀ : Task σ} {d d₀ : Document σ} {fs fs' : FileSystem}

/-- A step of another document changes nothing at the places of a document. -/
theorem Separate.sight_other (hsep : Separate s ds before.files) (hclear : Clear before.files s fs)
    (hd : d.Among s ds) (hd₀ : d₀.Among s ds) (hne : d₀.locator ≠ d.locator)
    (htouched : Touched (d.places fs.cwd) (d.ways fs) fs fs') :
    ∀ loc ∈ d₀.places before.files.cwd, fs'.sight? loc = fs.sight? loc := by
  intro loc hloc
  have habove := (hsep.placed hd₀).places_not_above loc hloc
  have hplaces := hsep.disjoint hd hd₀ hne loc hloc
  rw [← hclear.later.cwd] at hplaces
  rw [hd₀.2] at habove
  rw [Document.ways, hd.2] at htouched
  exact hclear.sight? hsep.apart htouched (Set.Subset.refl _) habove hplaces

theorem Followed.other (hsep : Separate s ds before.files) (hclear : Clear before.files s fs)
    (hclear' : Clear before.files s fs') (hd : d.Among s ds) (hd₀ : t₀.document.Among s ds)
    (hne : t₀.document.locator ≠ d.locator)
    (htouched : Touched (d.places fs.cwd) (d.ways fs) fs fs')
    (hrequests : ∀ r ∈ requests, r.source.locator = d.locator)
    (h : Followed plan before history fs t₀) :
    Followed plan before (history ++ requests) fs' t₀ := by
  obtain ⟨shadow, halike, hfit, halone⟩ := h
  refine ⟨shadow, ⟨hd₀.2 ▸ hclear', halike.right, ?_⟩, hfit, ?_⟩
  · intro loc hloc
    rw [halike.same loc hloc, hsep.sight_other hclear hd hd₀ hne htouched loc hloc]
  · have hnone : Request.own t₀.document.locator requests = [] :=
      Request.own_eq_nil fun r hr heq => hne (heq.symm.trans (hrequests r hr))
    rw [Request.own_append, hnone, List.append_nil]
    exact halone

theorem Settled.other (hsep : Separate s ds before.files) (hclear : Clear before.files s fs)
    (hd : d.Among s ds) (hd₀ : d₀.Among s ds) (hne : d₀.locator ≠ d.locator)
    (htouched : Touched (d.places fs.cwd) (d.ways fs) fs fs') {outcome : Outcome}
    (h : Settled plan before fs d₀ outcome) : Settled plan before fs' d₀ outcome where
  ending := h.ending
  named := h.named
  result := by
    rw [hsep.sight_other hclear hd hd₀ hne htouched _ (Or.inr rfl)]
    exact h.result

/-- At first everyone has a task that has not begun. -/
theorem everyone_start (hinitial : ∀ d ∈ ds, d.renew = d ∧ d.settings = s) :
    ((ds.map Task.fresh).map (·.document.renew)).Perm ds := by
  have hmap : ds.map Document.renew = ds :=
    (List.map_congr_left fun d hd => (hinitial d hd).1).trans (List.map_id ds)
  rw [List.map_map]
  exact List.Perm.of_eq hmap

theorem among_task_of_everyone (hinitial : ∀ d ∈ ds, d.renew = d ∧ d.settings = s)
    (heveryone : (done.map (·.1) ++ tasks.map (·.document.renew)).Perm ds) (ht : t ∈ tasks) :
    t.document.Among s ds := by
  have hmem : t.document.renew ∈ ds := by
    refine heveryone.subset (List.mem_append_right _ ?_)
    exact List.mem_map_of_mem (f := fun t : Task σ => t.document.renew) ht
  exact ⟨hmem, (hinitial _ hmem).2⟩

theorem among_done_of_everyone (hinitial : ∀ d ∈ ds, d.renew = d ∧ d.settings = s)
    (heveryone : (done.map (·.1) ++ tasks.map (·.document.renew)).Perm ds)
    {a : Document σ × Outcome} (ha : a ∈ done) : a.1.Among s ds := by
  have hmem : a.1 ∈ ds := heveryone.subset (List.mem_append_left _ (List.mem_map_of_mem ha))
  obtain ⟨hrenew, hsettings⟩ := hinitial _ hmem
  exact ⟨hrenew.symm ▸ hmem, hsettings⟩

/-- A task that goes on is still that of its document. -/
theorem everyone_goOn (hakin : t.document.Akin t'.document)
    (heveryone : (done.map (·.1) ++ (front ++ t :: back).map (·.document.renew)).Perm ds) :
    (done.map (·.1) ++ (front ++ t' :: back).map (·.document.renew)).Perm ds := by
  rw [List.map_append, List.map_cons] at heveryone ⊢
  rw [hakin.renew]
  exact heveryone

/-- Where everyone is there once, no other document has the locator of a task. -/
theorem locator_ne_of_everyone (hlocators : (ds.map (·.locator)).Nodup)
    (heveryone : (done.map (·.1) ++ (front ++ t :: back).map (·.document.renew)).Perm ds) :
    (∀ t₀ ∈ front ++ back, t₀.document.locator ≠ t.document.locator) ∧
      ∀ a ∈ done, a.1.locator ≠ t.document.locator := by
  have hperm : (t.document.renew ::
      (done.map (·.1) ++ (front ++ back).map (·.document.renew))).Perm ds := by
    refine List.Perm.trans ?_ heveryone
    rw [List.map_append, List.map_append, List.map_cons, ← List.append_assoc, ← List.append_assoc]
    exact List.perm_middle.symm
  have hnodup := (hperm.map (·.locator)).nodup_iff.mpr hlocators
  rw [List.map_cons, List.nodup_cons] at hnodup
  refine ⟨fun t₀ ht₀ heq => hnodup.1 ?_, fun a ha heq => hnodup.1 ?_⟩
  · refine List.mem_map.mpr ⟨t₀.document.renew, List.mem_append_right _ ?_, heq⟩
    exact List.mem_map_of_mem (f := fun t : Task σ => t.document.renew) ht₀
  · exact List.mem_map.mpr ⟨a.1, List.mem_append_left _ (List.mem_map_of_mem ha), heq⟩

/-- A task that ends has its document among those that are done. -/
theorem everyone_finish {outcome : Outcome}
    (heveryone : (done.map (·.1) ++ (front ++ t :: back).map (·.document.renew)).Perm ds) :
    ((done ++ [(t.document.renew, outcome)]).map (·.1) ++
      (front ++ back).map (·.document.renew)).Perm ds := by
  refine List.Perm.trans ?_ heveryone
  simp only [List.map_append, List.map_cons, List.map_nil, List.append_assoc]
  refine List.Perm.append_left _ ?_
  rw [List.singleton_append]
  exact List.perm_middle.symm

namespace Faithful

theorem among_task (h : Faithful s ds plan before done history tasks w) (ht : t ∈ tasks) :
    t.document.Among s ds :=
  among_task_of_everyone h.initial h.everyone ht

theorem among_done (h : Faithful s ds plan before done history tasks w)
    {a : Document σ × Outcome} (ha : a ∈ done) : a.1.Among s ds :=
  among_done_of_everyone h.initial h.everyone ha

/-- No other document has the locator of a task. -/
theorem locator_ne (hsep : Separate s ds before.files)
    (h : Faithful s ds plan before done history (front ++ t :: back) w) :
    (∀ t₀ ∈ front ++ back, t₀.document.locator ≠ t.document.locator) ∧
      ∀ a ∈ done, a.1.locator ≠ t.document.locator :=
  locator_ne_of_everyone hsep.locators h.everyone

/-- A step of one task keeps what holds of the other ones. -/
theorem others (hsep : Separate s ds before.files)
    (h : Faithful s ds plan before done history (front ++ t :: back) w) :
    Going s ds plan before done (history ++ t.requests) (front ++ back) (t.step plan w).2 := by
  have ht := h.among_task (t := t) (by simp)
  have htouched := t.touched_step plan w
  have hne := h.locator_ne hsep
  have hclear : Clear before.files s (t.step plan w).2.files := by
    refine h.clear.touched htouched fun loc hloc => ?_
    rw [← ht.2]
    rw [h.clear.later.cwd] at hloc
    exact (hsep.placed ht).places_not_above loc hloc
  have hrequests : ∀ r ∈ t.requests, r.source.locator = t.document.locator := by
    intro r hr
    rw [Task.source_of_requests hr]
    rfl
  refine ⟨h.initial, ?_, ?_, hclear, ?_, ?_, ?_⟩
  · rw [Task.remote_step, h.remote, Request.sendAll_append]
  · intro r hr
    rcases List.mem_append.mp hr with hr | hr
    · exact h.requests r hr
    · rw [Task.source_of_requests hr]
      exact List.mem_map.mpr ⟨_, ht.1, rfl⟩
  · exact h.ready.imp_right (FileSystem.isDir_mono htouched.cwd htouched.kept)
  · intro t₀ ht₀
    have hmem : t₀ ∈ front ++ t :: back := Moment.mem_turn.mpr (Or.inr ht₀)
    exact (h.followed t₀ hmem).other hsep h.clear hclear ht (h.among_task hmem) (hne.1 t₀ ht₀)
      htouched hrequests
  · intro a ha
    exact (h.settled a ha).other hsep h.clear ht (h.among_done ha) (hne.2 a ha) htouched

variable (hsep : Separate s ds before.files) (hregular : plan.processor.Regular)
  (hindependent : Independent (ds.map (·.source)) before.remote)
  (h : Faithful s ds plan before done history (front ++ t :: back) w)

include hsep hregular hindependent h

/-- A step of a task is a step of its shadow, which goes on with it. -/
theorem agree :
    ∃ shadow : World σ,
      Task.Agree before.files t.document (t.step plan w) (t.step plan shadow) ∧
        Task.onward plan (t.step plan shadow) = t.document.renew.work plan before ∧
        (t.step plan shadow).2.remote =
          Request.sendAll before.remote (Request.own t.document.locator (history ++ t.requests)) := by
  have ht := h.among_task (t := t) (by simp)
  obtain ⟨shadow, halike, hfit, halone⟩ := h.followed t (by simp)
  have hmakes : (w.files.makeDirs t.document.settings.downloadDir).1 = .ok () := by
    rw [ht.2]
    rcases h.ready with hempty | hdir
    · rw [FileSystem.makeDirs, FileSystem.makeDirsWithin_eq, if_pos hempty]
    · rw [FileSystem.makeDirs_of_isDir hdir]
  -- the shadow's source was asked the same as in the run, so it answers the same
  have hown : ∀ r ∈ Request.own t.document.locator history, r.source ∈ ds.map (·.source) :=
    fun r hr => h.requests r (List.mem_of_mem_filter hr)
  have hanswers : t.document.source.answers
      (Request.sendAll before.remote (Request.own t.document.locator history)) =
      t.document.source.answers w.remote := by
    rw [h.remote]
    exact hindependent _ (List.mem_map.mpr ⟨_, ht.1, rfl⟩) _ _ hown h.requests
      (Request.own_own _ history)
  refine ⟨⟨shadow, _⟩, Task.agree_step (hsep.placed ht) halike hregular hmakes hfit hanswers, ?_, ?_⟩
  · rw [← Task.alone_eq]
    exact halone
  · have hrequests : Request.own t.document.locator t.requests = t.requests := by
      refine Request.own_eq_self fun r hr => ?_
      rw [Task.source_of_requests hr]
      rfl
    rw [Task.remote_step, Request.own_append, Request.sendAll_append, hrequests]

theorem goOn (hstep : t.step plan w = (.waiting t', w')) :
    Faithful s ds plan before done (history ++ t.requests) (front ++ t' :: back) w' := by
  have hothers := h.others hsep
  obtain ⟨shadow, hagree, hcomes, hremote⟩ := h.agree hsep hregular hindependent
  have hakin := (Task.waits_of_step hstep).1
  rw [hstep] at hothers hagree
  have hshadow : t.step plan shadow = (.waiting t', (t.step plan shadow).2) :=
    Prod.ext hagree.progress rfl
  rw [hshadow] at hcomes
  have hfollowed : Followed plan before (history ++ t.requests) w'.files t' := by
    refine ⟨(t.step plan shadow).2.files, hagree.alike.akin hakin, hagree.fit t' rfl, ?_⟩
    rw [hakin.locator, ← hremote, hakin.renew]
    exact hcomes
  refine { hothers with followed := ?_, everyone := ?_ }
  · intro t₀ ht₀
    rcases Moment.mem_turn.mp ht₀ with rfl | ht₀
    · exact hfollowed
    · exact hothers.followed t₀ ht₀
  · exact everyone_goOn hakin h.everyone

theorem finish {outcome : Outcome} (hstep : t.step plan w = (.ended (.finished outcome), w')) :
    Faithful s ds plan before (done ++ [(t.document.renew, outcome)]) (history ++ t.requests)
      (front ++ back) w' := by
  have hothers := h.others hsep
  obtain ⟨shadow, hagree, hcomes, _⟩ := h.agree hsep hregular hindependent
  have hnamed := Task.locator_of_step hstep
  rw [hstep] at hothers hagree
  have hshadow : t.step plan shadow = (.ended (.finished outcome), (t.step plan shadow).2) :=
    Prod.ext hagree.progress rfl
  rw [hshadow] at hcomes
  have hsettled : Settled plan before w'.files t.document.renew outcome := by
    refine ⟨?_, hnamed, ?_⟩
    · rw [← hcomes]
      rfl
    · rw [← hcomes]
      refine (hagree.alike.same _ ?_).symm
      rw [← t.document.akin_renew.places]
      exact Or.inr rfl
  refine { hothers with settled := ?_, everyone := ?_ }
  · intro a ha
    rcases List.mem_append.mp ha with ha | ha
    · exact hothers.settled a ha
    · rw [List.mem_singleton.mp ha]
      exact hsettled
  · exact everyone_finish h.everyone

/-- No step breaks down. -/
theorem not_brokeDown {message : String} :
    t.step plan w ≠ (.ended (.brokeDown message), w') := by
  intro hstep
  obtain ⟨_, hagree, _⟩ := h.agree hsep hregular hindependent
  exact hagree.sound message (by rw [hstep])

end Faithful

end Steps

/-! ## Moments -/

namespace Moment

variable {s : Settings} {ds : List (Document σ)} {plan : Plan} {before : World σ} {bound : Nat}
  {m m' : Moment σ}

/-- What is left to do, in tasks. -/
def tasks (m : Moment σ) : List (Task σ) := m.active ++ m.waiting.map .fresh

/-- A document that is taken up has the same to do as before. -/
theorem tasks_takeUp (active : List (Task σ)) (d : Document σ) (waiting : List (Document σ))
    (w : World σ) (outcomes : List Outcome) :
    tasks ⟨active ++ [.fresh d], waiting, w, outcomes⟩ =
      tasks ⟨active, d :: waiting, w, outcomes⟩ := by
  simp [tasks]

/-- A moment at which each document comes to what it comes to alone, or has come to it. -/
def Undisturbed (s : Settings) (ds : List (Document σ)) (plan : Plan) (before : World σ)
    (m : Moment σ) : Prop :=
  ∃ done history, m.outcomes = done.map (·.2) ∧
    Faithful s ds plan before done history m.tasks m.world

theorem Undisturbed.next (h : Undisturbed s ds plan before m)
    (hsep : Separate s ds before.files) (hregular : plan.processor.Regular)
    (hindependent : Independent (ds.map (·.source)) before.remote) (hnext : Next plan bound m m') :
    Undisturbed s ds plan before m' := by
  obtain ⟨done, history, houtcomes, h⟩ := h
  cases hnext with
  | takeUp _ =>
      refine ⟨done, history, houtcomes, ?_⟩
      rw [tasks_takeUp]
      exact h
  | @goOn front back t t' waiting w w' outcomes hstep =>
      rw [tasks, List.append_assoc, List.cons_append] at h
      refine ⟨done, history ++ t.requests, houtcomes, ?_⟩
      rw [tasks, List.append_assoc, List.cons_append]
      exact h.goOn hsep hregular hindependent hstep
  | @finish front back t waiting w w' outcomes outcome hstep =>
      rw [tasks, List.append_assoc, List.cons_append] at h
      refine ⟨done ++ [(t.document.renew, outcome)], history ++ t.requests, ?_, ?_⟩
      · rw [List.map_append, ← houtcomes]
        rfl
      · rw [tasks, List.append_assoc]
        exact h.finish hsep hregular hindependent hstep

/-- A run whose documents are undisturbed comes to its end, with one outcome for each. -/
theorem Undisturbed.endsAs (h : Undisturbed s ds plan before m)
    (hsep : Separate s ds before.files) (hregular : plan.processor.Regular)
    (hindependent : Independent (ds.map (·.source)) before.remote) (hm : m.outcomes = [])
    {r : Ending (List Outcome) × World σ} (hends : EndsAs plan bound m r) :
    ∃ done history, r.1 = .finished (done.map (·.2)) ∧
      Faithful s ds plan before done history [] r.2 := by
  have hlater {m' : Moment σ} (hleads : Leads plan bound m m') :
      Undisturbed s ds plan before m' :=
    hleads.invariant (fun _ _ hnext hm => hm.next hsep hregular hindependent hnext) h
  cases hends with
  | finished hleads =>
      obtain ⟨done, history, houtcomes, hfaithful⟩ := hlater hleads
      rw [hm, List.nil_append] at houtcomes
      exact ⟨done, history, congrArg Ending.finished houtcomes, hfaithful⟩
  | brokeDown hleads hstep =>
      obtain ⟨done, history, _, hfaithful⟩ := hlater hleads
      rw [tasks, List.append_assoc, List.cons_append] at hfaithful
      exact absurd hstep (hfaithful.not_brokeDown hsep hregular hindependent)

end Moment

/-! ## Runs -/

namespace Connector

variable {c : Connector σ} {w : World σ} {ds : List (Document σ)} {remote : σ}

theorem initial_of_documents (h : c.documents w.remote = (.ok ds, remote)) :
    ∀ d ∈ ds, d.renew = d ∧ d.settings = c.settings := by
  rw [documents] at h
  split at h
  · next sources _ _ =>
      cases h
      exact Document.initial_of_sources c.settings sources
  · cases h

/-- In the beginning each document has its shadow in the tree before the run. -/
theorem undisturbed_start (plan : Plan) (hprepare : (c.prepare w.files).1 = .ok ())
    (hlist : c.documents w.remote = (.ok ds, remote)) (hsep : Separate c.settings ds w.files) :
    Moment.Undisturbed c.settings ds plan ⟨w.files, remote⟩
      ⟨[], ds, ⟨(c.prepare w.files).2, remote⟩, []⟩ := by
  have hinitial := initial_of_documents hlist
  have htouched := c.touched_prepare w.files
  have hbefore := Clear.refl w.files c.settings
  have hclear := hbefore.touched htouched fun loc hloc => absurd hloc (Set.notMem_empty loc)
  have hmakes : (w.files.makeDirs c.settings.downloadDir).1 = .ok () := by
    rw [prepare_eq] at hprepare
    cases hmade : (w.files.makeDirs c.settings.downloadDir).1 with
    | error e =>
        rw [hmade] at hprepare
        cases hprepare
    | ok u => rfl
  refine ⟨[], [], rfl, ⟨hinitial, rfl, ?_, hclear, ready_of_prepare hprepare, ?_, ?_⟩, ?_⟩
  · intro r hr
    cases hr
  · intro t ht
    obtain ⟨d, hd, rfl⟩ := List.mem_map.mp ht
    obtain ⟨hrenew, hsettings⟩ := hinitial d hd
    have hplaced := hsep.placed ⟨hrenew.symm ▸ hd, hsettings⟩
    refine ⟨w.files, ⟨hsettings.symm ▸ hclear, .refl _ _, ?_⟩, ?_, ?_⟩
    · intro loc hloc
      have habove := hplaced.places_not_above loc hloc
      rw [hsettings] at habove
      exact (hbefore.sight? hsep.apart htouched Set.subset_union_left habove
        (Set.notMem_empty _)).symm
    · rw [Task.Fit, hsettings]
      exact hmakes
    · rw [Task.alone_fresh, show (Task.fresh d).document.renew = d from hrenew]
      rfl
  · intro a ha
    cases ha
  · exact everyone_start hinitial

theorem workOn_eq (c : Connector σ) (processor : Processor) (conditions : Conditions)
    (schedule : Schedule) (hprepare : (c.prepare w.files).1 = .ok ())
    (hlist : c.documents w.remote = (.ok ds, remote)) :
    c.workOn processor conditions schedule w =
      (((Queue.ofDocuments ds).run (c.plan processor conditions) c.bound schedule 0
          ⟨(c.prepare w.files).2, remote⟩).1.map fun outcomes => .ok (.ofOutcomes outcomes),
        ((Queue.ofDocuments ds).run (c.plan processor conditions) c.bound schedule 0
          ⟨(c.prepare w.files).2, remote⟩).2) := by
  rw [workOn, hlist]
  cases hprepared : c.prepare w.files with
  | mk r files =>
      rw [hprepared] at hprepare
      cases hprepare
      rfl

/-- Cleaning up after a connector takes no result away, if results are not in the download
directory. -/
theorem sight?_cleanUp {cwd : Location}
    (hnotAbove : ¬c.settings.downloadDir.location cwd <+: c.settings.outputDir.location cwd)
    (hnotBelow : ¬c.settings.outputDir.location cwd <+: c.settings.downloadDir.location cwd)
    {fs : FileSystem} (hcwd : fs.cwd = cwd) {d : Document σ} (hd : d.settings = c.settings) :
    (c.cleanUp fs).sight? (d.outputPlace cwd) = fs.sight? (d.outputPlace cwd) := by
  rw [cleanUp]
  split
  · rfl
  · rcases fs.sight?_pruneAt_or c.settings.downloadDir (d.outputPlace cwd) with
      hsame | ⟨_, hbelow, _⟩
    · exact hsame
    · rw [hcwd, d.outputPlace_eq, hd] at hbelow
      rcases List.prefix_concat_iff.mp hbelow with heq | hpre
      · exact absurd (heq ▸ List.prefix_append _ _) hnotBelow
      · exact absurd hpre hnotAbove

/-- The work of a run comes to its end, and each document to what it comes to alone. -/
theorem faithful_work (c : Connector σ) (processor : Processor) (conditions : Conditions)
    (schedule : Schedule) (hprepare : (c.prepare w.files).1 = .ok ())
    (hlist : c.documents w.remote = (.ok ds, remote)) (hregular : processor.Regular)
    (hsep : Separate c.settings ds w.files)
    (hindependent : Independent (ds.map (·.source)) remote) :
    ∃ done history,
      ((Queue.ofDocuments ds).run (c.plan processor conditions) c.bound schedule 0
        ⟨(c.prepare w.files).2, remote⟩).1 = .finished (done.map (·.2)) ∧
      Faithful c.settings ds (c.plan processor conditions) ⟨w.files, remote⟩ done history []
        ((Queue.ofDocuments ds).run (c.plan processor conditions) c.bound schedule 0
          ⟨(c.prepare w.files).2, remote⟩).2 := by
  have hstart := undisturbed_start (c.plan processor conditions) hprepare hlist hsep
  exact hstart.endsAs hsep hregular hindependent rfl
    (Moment.endsAs_run (Nat.le_max_left 1 _) schedule 0 (Queue.ofDocuments ds) _ [])

section Theorem

variable (c : Connector σ) (processor : Processor) (conditions : Conditions) (schedule : Schedule)
  (w : World σ) (ds : List (Document σ)) (remote : σ)

/-- A run whose documents come to the outcomes and the results that they come to alone, which
are counted in its totals. -/
structure OrderFree (outcome : Document σ → Outcome) : Prop where
  /-- Alone, each document comes to its outcome. -/
  alone : ∀ d ∈ ds,
    (d.work (c.plan processor conditions) ⟨w.files, remote⟩).1 = .finished (outcome d)
  named : ∀ d ∈ ds, (outcome d).locator = d.locator
  /-- In the run, the documents come to these outcomes, in some order. -/
  outcomes : ∃ os, os.Perm (ds.map outcome) ∧
    ((Queue.ofDocuments ds).run (c.plan processor conditions) c.bound schedule 0
      ⟨(c.prepare w.files).2, remote⟩).1 = .finished os
  /-- After the run, the same is at the place of each result as after the work alone. -/
  results : ∀ d ∈ ds,
    (c.run processor conditions schedule w).2.files.sight? (d.outputPlace w.files.cwd) =
      (d.work (c.plan processor conditions) ⟨w.files, remote⟩).2.files.sight?
        (d.outputPlace w.files.cwd)
  totals : ∃ summary, (c.run processor conditions schedule w).1 = .finished (.ok summary) ∧
    summary.Counts (ds.map outcome)

/-- **The order of a run makes no difference.** However the documents take turns, each comes to
the outcome and the result that it comes to when it is worked on alone, and the totals count
each once: if places are apart, the processor is regular and the sources do not depend on each
other. -/
theorem run_order_free (hprepare : (c.prepare w.files).1 = .ok ())
    (hlist : c.documents w.remote = (.ok ds, remote))
    (hregular : processor.Regular) (hsep : Separate c.settings ds w.files)
    (hindependent : Independent (ds.map (·.source)) remote) :
    ∃ outcome, OrderFree c processor conditions schedule w ds remote outcome := by
  obtain ⟨done, history, hending, hfaithful⟩ :=
    c.faithful_work processor conditions schedule hprepare hlist hregular hsep hindependent
  have hwork := c.workOn_eq processor conditions schedule hprepare hlist
  have hperm : (done.map (·.1)).Perm ds := by
    have heveryone := hfaithful.everyone
    rwa [List.map_nil, List.append_nil] at heveryone
  let outcome := Document.outcomeAlone (c.plan processor conditions) ⟨w.files, remote⟩
  have houtcome : ∀ a ∈ done, outcome a.1 = a.2 :=
    fun a ha => Document.outcomeAlone_eq (hfaithful.settled a ha).ending
  have houtcomes : (done.map (·.2)).Perm (ds.map outcome) := by
    have hmap : (done.map (·.1)).map outcome = done.map (·.2) := by
      rw [List.map_map]
      exact List.map_congr_left houtcome
    exact hmap ▸ hperm.map outcome
  -- each document is among those that are done, with the outcome that it comes to alone
  have hdone : ∀ d ∈ ds, (d, outcome d) ∈ done := by
    intro d hd
    obtain ⟨a, ha, rfl⟩ := List.mem_map.mp (hperm.mem_iff.mpr hd)
    rw [houtcome a ha]
    exact ha
  refine ⟨outcome, fun d hd => (hfaithful.settled _ (hdone d hd)).ending,
    fun d hd => (hfaithful.settled _ (hdone d hd)).named, ⟨_, houtcomes, hending⟩, ?_, ?_⟩
  · intro d hd
    rw [run, hwork, ← (hfaithful.settled _ (hdone d hd)).result]
    exact sight?_cleanUp hsep.apart.notAbove hsep.apart.notBelow hfaithful.clear.later.cwd
      (initial_of_documents hlist d hd).2
  · refine ⟨.ofOutcomes (done.map (·.2)), ?_, (Summary.counts_ofOutcomes _).perm houtcomes⟩
    rw [run, hwork, hending]
    rfl

end Theorem

/-! ## A run of two documents -/

/-- The processor that is used unless told otherwise. -/
def usual : Processor := Processing.processor Processing.defaultCleaners

theorem regular_usual : usual.Regular := Processing.regular_processor _

/-- Sources without a state do not depend on each other. -/
theorem independent_steady (sources : List (Source Unit)) : Independent sources () :=
  fun _ _ _ _ _ _ _ => rfl

/-- Two sources of which the second one fails. -/
def oneFails : List (Source Unit) :=
  [.steady "a" (.ok ⟨[], .ok "one".toUTF8⟩), .steady "b" (.error (.unavailable "b" .notFound))]

theorem run_order_free_oneFails :
    ∃ outcome, OrderFree (.steady (.within ⟨"/d"⟩ ⟨"/o"⟩) oneFails) usual (.steady .epoch) .inOrder
      ⟨⟨.empty, []⟩, ()⟩ (oneFails.map (.ofSource (.within ⟨"/d"⟩ ⟨"/o"⟩))) () outcome := by
  refine run_order_free _ _ _ _ _ _ _ rfl rfl regular_usual ?_
    (independent_steady _)
  refine ⟨⟨?_, ?_, by decide +kernel, by decide +kernel⟩, ?_, by decide +kernel, by decide +kernel⟩
  · exact FileSystem.grounded_of_notMem rfl (by decide +kernel)
  · exact FileSystem.grounded_of_notMem rfl (by decide +kernel)
  · decide +kernel

/-- Whether a document came to be skipped. -/
def skips : Ending Outcome → Bool
  | .finished outcome => outcome.isSkipped
  | .brokeDown _ => false

/-- The number of skipped documents in the totals of a run. -/
def skippedIn : Ending (Except Fault Summary) → Nat
  | .finished (.ok summary) => summary.skipped
  | _ => 0

/-- In a run that is free of order, only documents are skipped that would be skipped alone. -/
theorem OrderFree.skipped_eq_zero {c : Connector σ} {processor : Processor}
    {conditions : Conditions} {schedule : Schedule} {outcome : Document σ → Outcome}
    (h : OrderFree c processor conditions schedule w ds remote outcome)
    (halone : ∀ d ∈ ds,
      skips (d.work (c.plan processor conditions) ⟨w.files, remote⟩).1 = false) :
    skippedIn (c.run processor conditions schedule w).1 = 0 := by
  obtain ⟨summary, hresult, hcounts⟩ := h.totals
  rw [hresult, skippedIn, hcounts.skipped, List.countP_eq_zero]
  intro o ho
  obtain ⟨d, hd, rfl⟩ := List.mem_map.mp ho
  have hd' := halone d hd
  rw [h.alone d hd, skips] at hd'
  rw [hd']
  exact Bool.false_ne_true

/-- An output directory whose path goes up from a directory that is missing. -/
def detour : Settings := ⟨⟨"downloads"⟩, ⟨"o/z/../../p"⟩, false, false, 1, false⟩

/-- A tree with a result for one document. -/
def oneResult : FileSystem := ⟨.dir [("p", .dir [("x.json", .file "old".toUTF8)])], []⟩

/-- Two sources of which neither fails. -/
def noneFails : List (Source Unit) :=
  [.steady "a" (.ok ⟨[], .ok "one".toUTF8⟩), .steady "x" (.ok ⟨[], .ok "two".toUTF8⟩)]

/-- On a detour the order does make a difference: the first document makes the directories by
which the second one finds that it has its result already, while alone it is processed. -/
theorem order_matters_on_detour :
    ((Connector.steady detour noneFails).prepare oneResult).1 = .ok () ∧
      (Connector.steady detour noneFails).documents () =
        (.ok (noneFails.map (.ofSource detour)), ()) ∧
      usual.Regular ∧
      ¬detour.downloadDir.location oneResult.cwd <+: detour.outputDir.location oneResult.cwd ∧
      ¬detour.outputDir.location oneResult.cwd <+: detour.downloadDir.location oneResult.cwd ∧
      (∀ d ∈ noneFails.map (Document.ofSource detour),
        Path.OrdinaryName (Document.stagedNameOf d.source)) ∧
      ((noneFails.map (Document.ofSource detour)).map
        fun d => Document.stagedNameOf d.source).Nodup ∧
      ((noneFails.map (Document.ofSource detour)).map
        fun d => Document.outputName d.locator).Nodup ∧
      Independent ((noneFails.map (Document.ofSource detour)).map (·.source)) () ∧
      ¬∃ outcome, OrderFree (.steady detour noneFails) usual (.steady .epoch) .inOrder
        ⟨oneResult, ()⟩ (noneFails.map (.ofSource detour)) () outcome := by
  refine ⟨rfl, rfl, regular_usual, by decide +kernel, by decide +kernel, by decide +kernel,
    by decide +kernel, by decide +kernel, independent_steady _, ?_⟩
  rintro ⟨outcome, h⟩
  exact absurd (h.skipped_eq_zero (by decide +kernel)) (by decide +kernel)

end Connector

end Intake
