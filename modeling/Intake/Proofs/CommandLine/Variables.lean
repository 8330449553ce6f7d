import Intake.CommandLine.Program
import Intake.Proofs.CommandLine.Arguments

/-!
# Settings that variables tell

The variables for settings are read by whoever takes the settings from the environment, and by the
program. Both take a directory and a count for the same, but the program knows a yes or no by one
word only. So what the program makes of variables that can be read as settings hangs on the words
for yes and no: it takes over all of them, or it stops.
-/

namespace Intake

/-! ## Variables -/

namespace Environment

variable {e : Environment} {name value : String}

theorem get?_extend (more : List (String × String)) (h : e.get? name = some value) :
    (e.extend more).get? name = some value := by
  unfold get? at h
  unfold extend get?
  rw [List.lookup_append, h]
  rfl

theorem get?_apply (lines : List (Option (List Char))) (h : e.get? name = some value) :
    (e.apply lines).get? name = some value := by
  induction lines generalizing e with
  | nil => exact h
  | cons line rest ih =>
      cases line with
      | none => exact h
      | some line =>
          rw [apply]
          split
          · exact ih h
          · exact ih (get?_extend _ h)
          · exact h

/-- A file of assignments leaves the variables that are set as they are. -/
theorem get?_load (fs : Files.FileSystem) (h : e.get? name = some value) :
    (e.load fs).get? name = some value := by
  unfold load
  split
  · exact get?_apply _ h
  · exact h

/-- The environment without some variables. -/
def without (e : Environment) (names : List String) : Environment :=
  { e with entries := e.entries.filter fun v => v.1 ∉ names }

theorem lookup_filter (keep : String → Bool) (name : String) (entries : List (String × String)) :
    (entries.filter fun v => keep v.1).lookup name =
      if keep name then entries.lookup name else none := by
  induction entries with
  | nil => simp
  | cons v rest ih =>
      obtain ⟨other, value⟩ := v
      rw [List.filter_cons]
      by_cases hname : name = other
      · rw [hname] at ih ⊢
        cases hkeep : keep other with
        | true => simp
        | false => simpa [hkeep] using ih
      · have hne : (name == other) = false := beq_eq_false_iff_ne.mpr hname
        rw [List.lookup_cons, hne, ← ih]
        split
        · rw [List.lookup_cons, hne]
        · rfl

theorem get?_without (e : Environment) (names : List String) (name : String) :
    (e.without names).get? name = if name ∈ names then none else e.get? name := by
  show (e.entries.filter _).lookup name = _
  rw [lookup_filter (fun other => other ∉ names)]
  by_cases h : name ∈ names
  · simp [h]
  · simp [h, get?]

/-- Whether the words for yes and no are the plain ones. -/
def PlainSwitches (e : Environment) : Prop :=
  ∀ key ∈ ["DOCFLOW_PRESERVE_DOWNLOADS", "DOCFLOW_REPROCESS"], ∀ value ∈ e.get? key,
    value = "true" ∨ value = "false"

instance (e : Environment) : Decidable e.PlainSwitches :=
  inferInstanceAs (Decidable (∀ key ∈ _, ∀ value ∈ e.get? key, _))

end Environment

/-! ## Settings from the environment -/

namespace Settings

variable {e : Environment} {told : Settings}

/-- The settings in which those that variables tell are the ones that were told. -/
def taking (s told : Settings) (e : Environment) : Settings where
  downloadDir := if (e.get? "DOCFLOW_DOWNLOAD_DIR").isSome then told.downloadDir else s.downloadDir
  outputDir := if (e.get? "DOCFLOW_OUTPUT_DIR").isSome then told.outputDir else s.outputDir
  retain := if (e.get? "DOCFLOW_PRESERVE_DOWNLOADS").isSome then told.retain else s.retain
  reprocess := if (e.get? "DOCFLOW_REPROCESS").isSome then told.reprocess else s.reprocess
  concurrency := if (e.get? "DOCFLOW_CONCURRENCY").isSome then told.concurrency else s.concurrency
  verbose := s.verbose

/-- What is told by the environment if it tells settings that are fit for a run. -/
structure ToldBy (told : Settings) (e : Environment) : Prop where
  downloadDir : told.downloadDir =
    ((e.get? "DOCFLOW_DOWNLOAD_DIR").map Files.Path.mk).getD (defaultDownloadDir e)
  outputDir : told.outputDir =
    ((e.get? "DOCFLOW_OUTPUT_DIR").map Files.Path.mk).getD ⟨"docflow-output"⟩
  retain : fromVariable e "DOCFLOW_PRESERVE_DOWNLOADS" readFlag false = .ok told.retain
  reprocess : fromVariable e "DOCFLOW_REPROCESS" readFlag false = .ok told.reprocess
  concurrency :
    fromVariable e "DOCFLOW_CONCURRENCY" readCount defaultConcurrency = .ok told.concurrency
  fit : told.validate = .ok ()

theorem toldBy_of_ofEnvironment (h : ofEnvironment e = .ok told) : told.ToldBy e := by
  obtain ⟨retain, hretain, h⟩ := bind_eq_ok.mp h
  obtain ⟨reprocess, hreprocess, h⟩ := bind_eq_ok.mp h
  obtain ⟨concurrency, hconcurrency, h⟩ := bind_eq_ok.mp h
  obtain ⟨⟨⟩, hfit, h⟩ := bind_eq_ok.mp h
  cases h
  exact ⟨rfl, rfl, hretain, hreprocess, hconcurrency, hfit⟩

theorem fromVariable_of_get? {α : Type} {name value : String}
    {read : String → String → Except Fault α} {default a : α} (hvalue : e.get? name = some value)
    (h : fromVariable e name read default = .ok a) : read name value = .ok a := by
  unfold fromVariable at h
  rwa [hvalue] at h

/-- Of the words for yes and no, the plain ones. -/
theorem readFlag_plain {name value : String} {b : Bool} (hplain : value = "true" ∨ value = "false")
    (h : readFlag name value = .ok b) : b = (some value == some "true") := by
  rcases hplain with rfl | rfl
  · cases h.symm.trans (show readFlag name "true" = .ok true from rfl)
    rfl
  · cases h.symm.trans (show readFlag name "false" = .ok false from rfl)
    rfl

/-- Settings that are fit for a run name both directories. -/
theorem ToldBy.dirs (h : told.ToldBy e) :
    told.downloadDir.text ≠ "" ∧ told.outputDir.text ≠ "" := by
  have hfit := h.fit
  unfold validate at hfit
  split at hfit
  · cases hfit
  · split at hfit
    · cases hfit
    · next hdownload =>
        split at hfit
        · cases hfit
        · next houtput =>
            constructor
            · intro heq
              simp [heq] at hdownload
            · intro heq
              simp [heq] at houtput

end Settings

/-! ## Options that variables give -/

namespace CommandLine

/-- The options for settings that variables can give, too. -/
def settingOptions : List Spec := commonOptions.filter fun s => s.envName.isSome

theorem settingOptions_eq : settingOptions =
    [(Spec.optional "download-dir" .path).withEnv "DOCFLOW_DOWNLOAD_DIR",
      (Spec.optional "output-dir" .path).withEnv "DOCFLOW_OUTPUT_DIR",
      (Spec.optional "preserve-downloads" .switch).withEnv "DOCFLOW_PRESERVE_DOWNLOADS",
      (Spec.optional "reprocess" .switch).withEnv "DOCFLOW_REPROCESS",
      (Spec.optional "concurrency" .count).withEnv "DOCFLOW_CONCURRENCY"] := rfl

/-- The names of the variables for settings. -/
def settingVariables : List String := settingOptions.filterMap (·.envName)

/-- The options that are understood after a command, with those that are understood before it. -/
abbrev Verb.all (v : Verb) : List Spec := (Place.after v).options

theorem common_subset (v : Verb) : commonOptions ⊆ v.all :=
  List.subset_append_right _ _

theorem nodup_names (v : Verb) : (v.all.map (·.name)).Nodup := by
  cases v <;> decide

/-- No other option has the name or the variable of an option for a setting. -/
theorem setting_or_other (v : Verb) : ∀ s ∈ v.all, s ∈ settingOptions ∧ s.required = false ∨
    (∀ o ∈ settingOptions, s.name ≠ o.name) ∧
      ∀ key ∈ settingVariables, s.envName ≠ some key := by
  cases v <;> decide

/-- Options for settings are written with their names only. -/
theorem unlettered_after (v : Verb) : ∀ s ∈ settingOptions, (Place.after v).Unlettered s.name := by
  unfold Place.Unlettered
  cases v <;> decide

theorem unlettered_program : ∀ s ∈ settingOptions, Place.program.Unlettered s.name := by
  unfold Place.Unlettered
  decide

/-- Whether no argument is written with the name of an option for a setting. -/
def NoFlag (args : List String) : Prop := ∀ arg ∈ args, ∀ s ∈ settingOptions, ¬Writes arg s.name

/-- Whether nothing is given for any setting. -/
def NoSetting (given : Given) : Prop := ∀ s ∈ settingOptions, given.lookup s.name = none

theorem NoFlag.read {args : List String} {place : Place} {ending : Place.End}
    (hargs : NoFlag args) (hplace : ∀ s ∈ settingOptions, place.Unlettered s.name)
    (h : place.read .start args = .ok ending) :
    ∀ s ∈ settingOptions, ending.Omits s.name args := by
  intro s hs
  have hnone : ∀ arg ∈ args, ¬Writes arg s.name := fun arg harg => hargs arg harg s hs
  exact Place.omits_read (hplace s hs) hnone (Progress.omits_start s.name) h

/-! ## Values that options accept -/

theorem accepts_path {value : String} (h : value ≠ "") : Kind.path.accepts value = true := by
  simpa [Kind.accepts] using h

theorem accepts_switch {value : String} :
    Kind.switch.accepts value = true ↔ value = "true" ∨ value = "false" := by
  simp [Kind.accepts]

theorem accepts_count {name value : String} {n : Nat} (h : Settings.readCount name value = .ok n) :
    Kind.count.accepts value = true ∧ countOf value = n := by
  unfold Settings.readCount at h
  split at h
  · next m hread =>
      cases h
      constructor
      · show (Text.Decimal.readBelow _ _).isSome = true
        rw [hread]
        rfl
      · unfold countOf
        rw [hread]
        rfl
  · cases h

/-! ## Checking -/

/-- Whether an option has a value that it accepts, where it is not given but has a variable, and is
not missing. -/
def Spec.fits (s : Spec) (given : Given) (e : Environment) : Bool :=
  match given.lookup s.name, s.fromEnv e with
  | some _, _ => true
  | none, some value => s.kind.accepts value
  | none, none => !s.required

theorem check_eq (options : List Spec) (given : Given) (e : Environment) :
    check options given e =
      if options.all (fun s => s.fits given e) then .ok () else .error .misused := rfl

/-- Whether options accept the values of some variables. -/
def Accepts (e : Environment) (keys : List String) : Prop :=
  ∀ s ∈ settingOptions, ∀ key ∈ keys, s.envName = some key → ∀ value, e.get? key = some value →
    s.kind.accepts value = true

section Without

variable {e : Environment} {keys : List String} {given : Given} {v : Verb} {s : Spec}
  (hkeys : keys ⊆ settingVariables)

include hkeys

/-- Without some variables an option has the same value from the environment, or else it had the
value of one of them. -/
theorem fromEnv_without (hs : s ∈ v.all) :
    s.fromEnv (e.without keys) = s.fromEnv e ∨
      s ∈ settingOptions ∧ s.required = false ∧ s.fromEnv (e.without keys) = none ∧
        ∃ key ∈ keys, s.envName = some key := by
  unfold Spec.fromEnv
  cases hname : s.envName with
  | none => exact Or.inl rfl
  | some key =>
      rw [Option.bind_some, Option.bind_some, Environment.get?_without]
      by_cases hmem : key ∈ keys
      · right
        rw [if_pos hmem]
        rcases setting_or_other v s hs with hsetting | ⟨_, hother⟩
        · exact ⟨hsetting.1, hsetting.2, rfl, key, hmem, rfl⟩
        · exact absurd hname (hother key (hkeys hmem))
      · rw [if_neg hmem]
        exact Or.inl rfl

variable (haccepts : Accepts e keys) (hgiven : NoSetting given)

include haccepts hgiven

theorem fits_without (hs : s ∈ v.all) : s.fits given (e.without keys) = s.fits given e := by
  unfold Spec.fits
  rcases fromEnv_without hkeys hs with heq | ⟨hsetting, hrequired, hnone, key, hkey, hname⟩
  · rw [heq]
  · rw [hgiven s hsetting, hnone, hrequired]
    cases hvalue : s.fromEnv e with
    | none => rfl
    | some value =>
        rw [Spec.fromEnv, hname, Option.bind_some] at hvalue
        exact (haccepts s hsetting key hkey hname value hvalue).symm

/-- Variables that are accepted make no difference to what is checked. -/
theorem check_without {options : List Spec} (hoptions : options ⊆ v.all) :
    check options given (e.without keys) = check options given e := by
  have hall : options.all (fun s => s.fits given (e.without keys)) =
      options.all (fun s => s.fits given e) := by
    rw [Bool.eq_iff_iff, List.all_eq_true, List.all_eq_true]
    apply forall₂_congr
    intro s hs
    rw [fits_without hkeys haccepts hgiven (hoptions hs)]
  rw [check_eq, check_eq, hall]

end Without

/-- A variable with a value that its option does not accept is refused. -/
theorem check_refused {options : List Spec} {given : Given} {e : Environment} {s : Spec}
    {key value : String} (hgiven : NoSetting given) (hs : s ∈ settingOptions)
    (hoption : s ∈ options) (hname : s.envName = some key) (hvalue : e.get? key = some value)
    (hrefused : s.kind.accepts value = false) : check options given e = .error .misused := by
  have hfits : s.fits given e = false := by
    unfold Spec.fits Spec.fromEnv
    rw [hgiven s hs, hname, Option.bind_some, hvalue]
    exact hrefused
  rw [check_eq, if_neg]
  intro hall
  rw [List.all_eq_true] at hall
  exact absurd (hall s hoption) (by simp [hfits])

/-! ## What the arguments and the variables give -/

/-- What the variables of some options give. -/
def givenBy (options : List Spec) (e : Environment) : Given :=
  options.filterMap fun s => (s.fromEnv e).map fun value => (s.name, value)

theorem givenBy_cons (s : Spec) (rest : List Spec) (e : Environment) :
    givenBy (s :: rest) e =
      ((s.fromEnv e).map fun value => (s.name, value)).toList ++ givenBy rest e := by
  unfold givenBy
  rw [List.filterMap_cons]
  cases s.fromEnv e <;> rfl

theorem collect_eq (options : List Spec) (after before : Given) (e : Environment) :
    collect options after before e = after ++ before ++ givenBy options e := rfl

theorem lookup_givenBy_cons (s : Spec) (rest : List Spec) (e : Environment) (name : String) :
    (givenBy (s :: rest) e).lookup name =
      if name = s.name then (s.fromEnv e).or ((givenBy rest e).lookup name)
      else (givenBy rest e).lookup name := by
  rw [givenBy_cons, List.lookup_append]
  cases s.fromEnv e with
  | none => simp
  | some value =>
      by_cases hname : name = s.name
      · simp [hname]
      · have hne : (name == s.name) = false := beq_eq_false_iff_ne.mpr hname
        simp [List.lookup_cons, hne, hname]

theorem lookup_givenBy_of_notMem {options : List Spec} {name : String} (e : Environment)
    (h : name ∉ options.map (·.name)) : (givenBy options e).lookup name = none := by
  induction options with
  | nil => rfl
  | cons s rest ih =>
      rw [List.map_cons, List.mem_cons, not_or] at h
      rw [lookup_givenBy_cons, if_neg h.1, ih h.2]

/-- Each option has the value that its variable gives. -/
theorem lookup_givenBy {options : List Spec} (hnodup : (options.map (·.name)).Nodup) {s : Spec}
    (hs : s ∈ options) (e : Environment) : (givenBy options e).lookup s.name = s.fromEnv e := by
  induction options with
  | nil => cases hs
  | cons o rest ih =>
      rw [List.map_cons, List.nodup_cons] at hnodup
      rw [lookup_givenBy_cons]
      rcases List.mem_cons.mp hs with rfl | hs
      · rw [if_pos rfl, lookup_givenBy_of_notMem e hnodup.1, Option.or_none]
      · have hne : s.name ≠ o.name := by
          intro hname
          exact hnodup.1 (hname ▸ List.mem_map_of_mem hs)
        rw [if_neg hne, ih hnodup.2 hs]

theorem lookup_givenBy_congr {options : List Spec} {name : String} {e e' : Environment}
    (h : ∀ s ∈ options, s.name = name → s.fromEnv e' = s.fromEnv e) :
    (givenBy options e').lookup name = (givenBy options e).lookup name := by
  induction options with
  | nil => rfl
  | cons s rest ih =>
      obtain ⟨hs, hrest⟩ := List.forall_mem_cons.mp h
      rw [lookup_givenBy_cons, lookup_givenBy_cons, ih hrest]
      by_cases hname : name = s.name
      · rw [hs hname.symm]
      · rw [if_neg hname, if_neg hname]

section Collected

variable {e : Environment} {keys : List String} {after before : Given} {v : Verb}
  (hkeys : keys ⊆ settingVariables) (hafter : NoSetting after) (hbefore : NoSetting before)

include hafter hbefore in
/-- What is collected for an option for a setting is what its variable gives. -/
theorem lookup_collect (name key : String) (kind : Kind)
    (hs : (Spec.optional name kind).withEnv key ∈ settingOptions) (e : Environment) :
    (collect v.all after before e).lookup name = e.get? key := by
  have hoption := common_subset v (List.mem_of_mem_filter hs)
  have hgiven := lookup_givenBy (nodup_names v) hoption e
  have hnone := hafter _ hs
  have hnone' := hbefore _ hs
  rw [collect_eq, List.lookup_append, List.lookup_append]
  show ((after.lookup _).or (before.lookup _)).or ((givenBy v.all e).lookup _) = _
  simp only [Spec.withEnv, Spec.optional] at hgiven hnone hnone'
  rw [hnone, hnone', hgiven]
  rfl

include hafter hbefore in
theorem settingsOf_collect (e : Environment) : settingsOf (collect v.all after before e) e =
    ⟨((e.get? "DOCFLOW_DOWNLOAD_DIR").map Files.Path.mk).getD (Settings.defaultDownloadDir e),
      ((e.get? "DOCFLOW_OUTPUT_DIR").map Files.Path.mk).getD usualOutputDir,
      e.get? "DOCFLOW_PRESERVE_DOWNLOADS" == some "true", e.get? "DOCFLOW_REPROCESS" == some "true",
      ((e.get? "DOCFLOW_CONCURRENCY").map countOf).getD Settings.defaultConcurrency,
      isOn (collect v.all after before e) "verbose"⟩ := by
  unfold settingsOf isOn
  have hcollect := lookup_collect (v := v) hafter hbefore
  rw [hcollect "download-dir" "DOCFLOW_DOWNLOAD_DIR" .path (by decide),
    hcollect "output-dir" "DOCFLOW_OUTPUT_DIR" .path (by decide),
    hcollect "preserve-downloads" "DOCFLOW_PRESERVE_DOWNLOADS" .switch (by decide),
    hcollect "reprocess" "DOCFLOW_REPROCESS" .switch (by decide),
    hcollect "concurrency" "DOCFLOW_CONCURRENCY" .count (by decide)]

include hkeys in
/-- Without some variables, nothing else is collected for other options. -/
theorem lookup_collect_without {name : String} (hname : ∀ s ∈ settingOptions, name ≠ s.name) :
    (collect v.all after before (e.without keys)).lookup name =
      (collect v.all after before e).lookup name := by
  have hgiven : (givenBy v.all (e.without keys)).lookup name = (givenBy v.all e).lookup name := by
    apply lookup_givenBy_congr
    intro s hs hsame
    rcases fromEnv_without hkeys hs with heq | ⟨hsetting, _⟩
    · exact heq
    · exact absurd hsame.symm (hname s hsetting)
  rw [collect_eq, collect_eq, List.lookup_append, hgiven, ← List.lookup_append]

include hkeys in
theorem jobOf_without : jobOf (collect v.all after before (e.without keys)) v =
    jobOf (collect v.all after before e) v := by
  have hlookup {name : String} (hname : ∀ s ∈ settingOptions, name ≠ s.name) :
      (collect v.all after before (e.without keys)).lookup name =
        (collect v.all after before e).lookup name := lookup_collect_without hkeys hname
  cases v with
  | slack =>
      simp only [jobOf, textOf]
      rw [hlookup (by decide), hlookup (by decide), hlookup (by decide), hlookup (by decide)]
  | drive =>
      simp only [jobOf, textOf, isOn]
      rw [hlookup (by decide), hlookup (by decide), hlookup (by decide), hlookup (by decide)]

end Collected

/-! ## Reading arguments -/

/-- The command that arguments give, and the options after it and before it. -/
structure Reads (args : List String) (v : Verb) (after before : Given) : Prop where
  split : ∃ p name rest q, Place.program.read .start args = .ok (.verb p name rest) ∧
    Verb.ofName? name = some v ∧ p.settle = .ok before ∧
      (Place.after v).read .start rest = .ok (.done q) ∧ q.settle = .ok after

section Reads

variable {args : List String} {v : Verb} {after before : Given} {e : Environment} {i : Invocation}

/-- What is collected from the arguments and the environment. -/
def invoked (v : Verb) (after before : Given) (e : Environment) : Invocation :=
  ⟨settingsOf (collect v.all after before e) e, jobOf (collect v.all after before e) v⟩

/-- Once the arguments are read, what is left is to check the variables. -/
theorem Reads.read (h : Reads args v after before) (e : Environment) :
    Invocation.read args e =
      (check v.all after e >>= fun _ => check commonOptions before e >>= fun _ =>
        .ok (invoked v after before e)) := by
  obtain ⟨p, name, rest, q, hprogram, hverb, hbefore, hafter, hsettle⟩ := h.split
  unfold Invocation.read readAfter
  simp only [hprogram, hverb, hbefore, hafter, hsettle, bind, Except.bind]
  cases check v.all after e <;> rfl

theorem readAfter_eq_ok {rest : List String} (h : readAfter v rest e = .ok after) :
    ∃ q, (Place.after v).read .start rest = .ok (.done q) ∧ q.settle = .ok after := by
  obtain ⟨ending, hread, h⟩ := bind_eq_ok.mp h
  cases ending with
  | verb _ _ _ => cases h
  | done q =>
      obtain ⟨given, hsettle, h⟩ := bind_eq_ok.mp h
      obtain ⟨_, _, h⟩ := bind_eq_ok.mp h
      cases h
      exact ⟨q, hread, hsettle⟩

theorem reads_of_ok (h : Invocation.read args e = .ok i) :
    ∃ v after before, Reads args v after before := by
  obtain ⟨ending, hprogram, h⟩ := bind_eq_ok.mp h
  cases ending with
  | done _ => cases h
  | verb p name rest =>
      simp only at h
      split at h
      · cases h
      · next v hverb =>
          obtain ⟨after, hafter, h⟩ := bind_eq_ok.mp h
          obtain ⟨before, hbefore, h⟩ := bind_eq_ok.mp h
          obtain ⟨q, hread, hsettle⟩ := readAfter_eq_ok hafter
          exact ⟨v, after, before, p, name, rest, q, hprogram, hverb, hbefore, hread, hsettle⟩

/-- Arguments without flags for settings give no settings. -/
theorem Reads.noSetting (h : Reads args v after before) (hargs : NoFlag args) :
    NoSetting after ∧ NoSetting before := by
  obtain ⟨p, name, rest, q, hprogram, _, hbefore, hafter, hsettle⟩ := h.split
  have homits := hargs.read unlettered_program hprogram
  constructor
  · intro s hs
    have hrest : NoFlag rest := fun arg harg => hargs arg ((homits s hs).2 harg)
    exact (hrest.read (unlettered_after v) hafter s hs).settle hsettle
  · intro s hs
    exact (homits s hs).1.settle hbefore

end Reads

/-! ## Settings that are taken over -/

/-- The variables for settings that are set. -/
def settingsSet (e : Environment) : List String :=
  settingVariables.filter fun key => (e.get? key).isSome

theorem mem_settingsSet {e : Environment} {key : String} :
    key ∈ settingsSet e ↔ key ∈ settingVariables ∧ ∃ value, e.get? key = some value := by
  rw [settingsSet, List.mem_filter, Option.isSome_iff_exists]

section Taken

variable {e found : Environment} {settings : Settings}
  (hkept : ∀ key value, e.get? key = some value → found.get? key = some value)
  (htold : settings.ToldBy e)

include hkept

/-- What is read from a variable that is set is what was told; what is read from another one is the
same without those that are set. -/
theorem read_taken {α : Type} (read : Option String → α) {key : String} {a : α}
    (ha : ∀ value, e.get? key = some value → read (some value) = a) :
    read (found.get? key) =
      if (e.get? key).isSome then a else read ((found.without (settingsSet e)).get? key) := by
  cases hvalue : e.get? key with
  | some value => rw [hkept key value hvalue, ha value hvalue, Option.isSome_some, if_pos rfl]
  | none =>
      have hnot : key ∉ settingsSet e := by
        intro hmem
        obtain ⟨_, value, hset⟩ := mem_settingsSet.mp hmem
        rw [hvalue] at hset
        cases hset
      rw [Environment.get?_without, if_neg hnot]
      rfl

omit hkept in
theorem defaultDownloadDir_without :
    Settings.defaultDownloadDir (found.without (settingsSet e)) =
      Settings.defaultDownloadDir found := by
  have hother {key : String} (hkey : key ∉ settingVariables) :
      (found.without (settingsSet e)).get? key = found.get? key := by
    rw [Environment.get?_without, if_neg fun hmem => hkey (mem_settingsSet.mp hmem).1]
  unfold Settings.defaultDownloadDir Settings.cacheDir? Environment.getFilled?
  rw [hother (by decide), hother (by decide)]
  rfl

include htold

/-- If the switches are plain, the options accept all that tells settings. -/
theorem accepts_of_plain (hplain : e.PlainSwitches) : Accepts found (settingsSet e) := by
  have hset {key value : String} (hkey : key ∈ settingsSet e)
      (hfound : found.get? key = some value) : e.get? key = some value := by
    obtain ⟨_, value', hvalue⟩ := mem_settingsSet.mp hkey
    rwa [← hfound, hkept key value' hvalue]
  unfold Accepts
  rw [settingOptions_eq]
  simp only [List.forall_mem_cons, List.not_mem_nil, false_implies, implies_true, and_true]
  refine ⟨?_, ?_, ?_, ?_, ?_⟩
  · rintro _ hkey ⟨⟩ value hfound
    have hdir := htold.downloadDir
    rw [hset hkey hfound] at hdir
    have hdirs := htold.dirs.1
    rw [hdir] at hdirs
    exact accepts_path hdirs
  · rintro _ hkey ⟨⟩ value hfound
    have hdir := htold.outputDir
    rw [hset hkey hfound] at hdir
    have hdirs := htold.dirs.2
    rw [hdir] at hdirs
    exact accepts_path hdirs
  · rintro _ hkey ⟨⟩ value hfound
    exact accepts_switch.mpr (hplain _ (by decide) value (hset hkey hfound))
  · rintro _ hkey ⟨⟩ value hfound
    exact accepts_switch.mpr (hplain _ (by decide) value (hset hkey hfound))
  · rintro _ hkey ⟨⟩ value hfound
    exact (accepts_count (Settings.fromVariable_of_get? (hset hkey hfound) htold.concurrency)).1

/-- What the program makes of the variables without flags are the settings that were told. -/
theorem settingsOf_taken (hplain : e.PlainSwitches) {v : Verb} {after before : Given}
    (hafter : NoSetting after) (hbefore : NoSetting before) :
    settingsOf (collect v.all after before found) found =
      (settingsOf (collect v.all after before (found.without (settingsSet e)))
        (found.without (settingsSet e))).taking settings e := by
  have hverbose : (collect v.all after before (found.without (settingsSet e))).lookup "verbose" =
      (collect v.all after before found).lookup "verbose" :=
    lookup_collect_without (List.filter_subset_self _) (by decide)
  rw [settingsOf_collect hafter hbefore, settingsOf_collect hafter hbefore]
  unfold Settings.taking isOn
  rw [defaultDownloadDir_without, hverbose]
  congr 1
  · apply read_taken hkept (fun o => (o.map Files.Path.mk).getD _)
    intro value hvalue
    rw [htold.downloadDir, hvalue]
    rfl
  · apply read_taken hkept (fun o => (o.map Files.Path.mk).getD _)
    intro value hvalue
    rw [htold.outputDir, hvalue]
    rfl
  · apply read_taken hkept (· == some "true")
    intro value hvalue
    have hread := Settings.fromVariable_of_get? hvalue htold.retain
    exact (Settings.readFlag_plain (hplain _ (by decide) value hvalue) hread).symm
  · apply read_taken hkept (· == some "true")
    intro value hvalue
    have hread := Settings.fromVariable_of_get? hvalue htold.reprocess
    exact (Settings.readFlag_plain (hplain _ (by decide) value hvalue) hread).symm
  · apply read_taken hkept (fun o => (o.map countOf).getD _)
    intro value hvalue
    exact (accepts_count (Settings.fromVariable_of_get? hvalue htold.concurrency)).2

end Taken

theorem exists_switch : ∀ key ∈ ["DOCFLOW_PRESERVE_DOWNLOADS", "DOCFLOW_REPROCESS"],
    ∃ s ∈ settingOptions, s.envName = some key ∧ s.kind = .switch := by
  decide

/-- If a switch is not plain, its option refuses it. -/
theorem refused_of_not_plain {e found : Environment}
    (hkept : ∀ key value, e.get? key = some value → found.get? key = some value)
    (hplain : ¬e.PlainSwitches) {options : List Spec} (hoptions : settingOptions ⊆ options)
    {given : Given} (hgiven : NoSetting given) : check options given found = .error .misused := by
  unfold Environment.PlainSwitches at hplain
  push Not at hplain
  obtain ⟨key, hkey, value, hvalue, htrue, hfalse⟩ := hplain
  have hrefused : Kind.switch.accepts value = false := by
    rw [Bool.eq_false_iff, ne_eq, accepts_switch, not_or]
    exact ⟨htrue, hfalse⟩
  obtain ⟨s, hs, hname, hkind⟩ := exists_switch key hkey
  exact check_refused hgiven hs (hoptions hs) hname (hkept key value hvalue) (hkind ▸ hrefused)

/-! ## The program -/

section Program

variable {σ : Type} {args : List String} {e : Environment} {w : World σ} (c : Circumstances σ)

theorem program_of_ok {i : Invocation} (h : Invocation.read args (e.load w.files) = .ok i) :
    program args e c w = i.run (e.load w.files) c w := by
  unfold program
  simp only [h]

theorem program_of_error {reason : Stop}
    (h : Invocation.read args (e.load w.files) = .error reason) :
    program args e c w = (.stopped reason, w) := by
  unfold program
  simp only [h]

/-- **Variables are read alike as far as their words for yes and no are plain.** Let the environment
tell settings, and let no argument be a flag for one of them. Whatever a file of assignments adds,
if the switches among the variables are plain, the program runs as it would without the variables
that tell settings, but with the settings that they tell; otherwise it stops. -/
theorem variables_read_alike {settings : Settings} {i : Invocation}
    (htold : Settings.ofEnvironment e = .ok settings) (hargs : NoFlag args)
    (hrest : Invocation.read args ((e.load w.files).without (settingsSet e)) = .ok i) :
    (e.PlainSwitches → program args e c w =
      ({ i with settings := i.settings.taking settings e }).run (e.load w.files) c w) ∧
    (¬e.PlainSwitches → program args e c w = (.stopped .misused, w)) := by
  have hkept (key value : String) (h : e.get? key = some value) :
      (e.load w.files).get? key = some value := Environment.get?_load w.files h
  have hkeys : settingsSet e ⊆ settingVariables := List.filter_subset_self _
  obtain ⟨v, after, before, hreads⟩ := reads_of_ok hrest
  obtain ⟨hafter, hbefore⟩ := hreads.noSetting hargs
  rw [hreads.read] at hrest
  obtain ⟨⟨⟩, hcheck, hrest⟩ := bind_eq_ok.mp hrest
  obtain ⟨⟨⟩, hcheck', hrest⟩ := bind_eq_ok.mp hrest
  cases hrest
  constructor
  · intro hplain
    have htaken := Settings.toldBy_of_ofEnvironment htold
    have haccepts := accepts_of_plain hkept htaken hplain
    rw [check_without hkeys haccepts hafter (List.Subset.refl _)] at hcheck
    rw [check_without hkeys haccepts hbefore (common_subset v)] at hcheck'
    have hread : Invocation.read args (e.load w.files) =
        .ok (invoked v after before (e.load w.files)) := by
      rw [hreads.read, hcheck, hcheck']
      rfl
    rw [program_of_ok c hread]
    unfold invoked
    rw [settingsOf_taken hkept htaken hplain hafter hbefore, jobOf_without hkeys]
  · intro hplain
    apply program_of_error
    have hall : settingOptions ⊆ v.all :=
      List.Subset.trans (List.filter_subset_self _) (common_subset v)
    rw [hreads.read, refused_of_not_plain hkept hplain hall hafter]
    rfl

end Program

/-! ## Variables in plain words and in others -/

theorem noFlag_of_prefix {args : List String}
    (h : ∀ arg ∈ args, ∀ s ∈ settingOptions, ¬("--" ++ s.name).toList <+: arg.toList) :
    NoFlag args := by
  intro arg harg s hs hwrites
  apply h arg harg s hs
  rcases hwrites with rfl | ⟨value, rfl⟩
  · exact List.prefix_refl _
  · have hmore : ("--" ++ s.name ++ "=" ++ value).toList =
        ("--" ++ s.name).toList ++ ("=" ++ value).toList := by
      rw [String.append_assoc, String.toList_append]
    rw [hmore]
    exact List.prefix_append _ _

/-- Arguments that name a channel and nothing else. -/
def oneChannel : List String := ["slack", "--channels", "C1", "--token=t"]

theorem noFlag_oneChannel : NoFlag oneChannel := noFlag_of_prefix (by decide)

/-- Nothing is there, and nobody answers. -/
def nowhere : World Unit := ⟨⟨.empty, []⟩, ()⟩

def silence : Circumstances Unit := ⟨.dead, 1, .steady .epoch, .inOrder⟩

/-- All settings are told, in plain words. -/
def plainly : Environment :=
  ⟨[("DOCFLOW_DOWNLOAD_DIR", "d"), ("DOCFLOW_OUTPUT_DIR", "o"),
    ("DOCFLOW_PRESERVE_DOWNLOADS", "true"), ("DOCFLOW_REPROCESS", "false"),
    ("DOCFLOW_CONCURRENCY", "+4")], none⟩

/-- One setting is told, in another word for yes. -/
def politely : Environment := ⟨[("DOCFLOW_PRESERVE_DOWNLOADS", "yes")], none⟩

def job : Job := .slack "C1" "t" none none

theorem variables_read_alike_plainly :
    Settings.ofEnvironment plainly = .ok ⟨⟨"d"⟩, ⟨"o"⟩, true, false, 4, false⟩ ∧
      program oneChannel plainly silence nowhere =
        Invocation.run ⟨⟨⟨"d"⟩, ⟨"o"⟩, true, false, 4, false⟩, job⟩ plainly silence nowhere := by
  have htold : Settings.ofEnvironment plainly = .ok ⟨⟨"d"⟩, ⟨"o"⟩, true, false, 4, false⟩ := by
    rfl
  have hrest : Invocation.read oneChannel ((plainly.load nowhere.files).without
      (settingsSet plainly)) =
        .ok ⟨.within ⟨".docflow-downloads"⟩ ⟨"./docflow-output"⟩, job⟩ := by
    rfl
  refine ⟨htold, ?_⟩
  exact (variables_read_alike silence htold noFlag_oneChannel hrest).1 (by decide)

/-- The environment tells that staged files are kept, and nothing is wrong with the arguments. But
the program stops at the word for it. -/
theorem polite_word_refused :
    Settings.ofEnvironment politely =
        .ok ⟨⟨".docflow-downloads"⟩, ⟨"docflow-output"⟩, true, false, 2, false⟩ ∧
      NoFlag oneChannel ∧
      Invocation.read oneChannel (politely.without ["DOCFLOW_PRESERVE_DOWNLOADS"]) =
        .ok ⟨.within ⟨".docflow-downloads"⟩ ⟨"./docflow-output"⟩, job⟩ ∧
      program oneChannel politely silence nowhere = (.stopped .misused, nowhere) :=
  ⟨rfl, noFlag_oneChannel, rfl, rfl⟩

end CommandLine

end Intake
