import Intake.Cleaning.Pipeline
import Intake.Proofs.Attempts

/-!
# Pipelines field by field

A pipeline takes one cleaner after the other over all of its fields. Each field could as well be
cleaned on its own, by all cleaners in their order: if that succeeds for every field, the pipeline
gives the same texts, and otherwise it fails as the field that fails at the smallest position, and
of several such fields as the first one. A long pipeline is its parts, one after the other.
-/

namespace Intake

/-- The same fault with more cleaners in front of those of the pipeline. -/
def Fault.behind (count : Nat) : Fault → Fault
  | .unclean field position found => .unclean field (position + count) found
  | f => f

namespace Cleaning

/-! ## A text on its own -/

/-- What a cleaner at a position makes of a text; or the position, and what it made instead. -/
def stepAlone (text : String) (step : Cleaner × Nat) : Except (Nat × Json) String :=
  match step.1 text with
  | .string s => .ok s
  | v => .error (step.2, v)

/-- What cleaners make of a text one after the other, the first of them at `position`. -/
def foldFrom (position : Nat) (cleaners : List Cleaner) (text : String) :
    Except (Nat × Json) String :=
  (cleaners.zipIdx position).foldlM stepAlone text

/-- What cleaners make of a text one after the other; or the position of the first one that makes
something else than a text, and what it makes. -/
def fold (cleaners : List Cleaner) (text : String) : Except (Nat × Json) String :=
  foldFrom 0 cleaners text

/-- The failure that comes first if all fields are cleaned at one position before the next, where
`outcome` is what becomes of the text of a field: no field fails at a smaller position, and none
before this one fails at the same. -/
structure FirstFailure (outcome : String → Except (Nat × Json) String) (fields : List Field)
    (field : Field) (position : Nat) (found : Json) : Prop where
  fails : outcome field.value = .error (position, found)
  first : ∃ k : Nat, fields[k]? = some field ∧ ∀ (i : Nat) (other : Field) (p : Nat) (v : Json),
    fields[i]? = some other → outcome other.value = .error (p, v) →
      position < p ∨ position = p ∧ k ≤ i

variable {position : Nat} {cleaner : Cleaner} {cleaners : List Cleaner} {text : String}

theorem foldFrom_nil : foldFrom position [] text = .ok text := rfl

theorem foldFrom_cons : foldFrom position (cleaner :: cleaners) text =
    stepAlone text (cleaner, position) >>= foldFrom (position + 1) cleaners := by
  rw [foldFrom, List.zipIdx_cons, List.foldlM_cons]
  rfl

theorem stepAlone_eq_error {p : Nat} {v : Json} :
    stepAlone text (cleaner, position) = .error (p, v) ↔
      p = position ∧ cleaner text = v ∧ ∀ s, v ≠ .string s := by
  rw [stepAlone]
  split
  · next s heq =>
      simp only [reduceCtorEq, false_iff, not_and]
      rintro - rfl
      exact fun h => h s heq
  · next hnot =>
      simp only [Except.error.injEq, Prod.mk.injEq]
      constructor
      · rintro ⟨rfl, rfl⟩
        exact ⟨rfl, rfl, hnot⟩
      · rintro ⟨rfl, rfl, -⟩
        exact ⟨rfl, rfl⟩

/-- A text fails at the position of one of the cleaners. -/
theorem le_of_foldFrom {p : Nat} {v : Json} (h : foldFrom position cleaners text = .error (p, v)) :
    position ≤ p := by
  induction cleaners generalizing position text with
  | nil => cases h
  | cons cleaner rest ih =>
      rw [foldFrom_cons, bind_eq_error, stepAlone_eq_error] at h
      rcases h with ⟨rfl, -⟩ | ⟨s, -, h⟩
      · exact Nat.le_refl p
      · exact Nat.le_of_succ_le (ih h)

/-! ## All fields -/

variable {fields results : List Field} {field result : Field} {fault : Fault}

theorem cleanField_eq_ok : cleanField position cleaner field = .ok result ↔
    result.name = field.name ∧ stepAlone field.value (cleaner, position) = .ok result.value := by
  obtain ⟨name, value⟩ := result
  simp only [cleanField, stepAlone]
  cases cleaner field.value <;> simp [eq_comm]

theorem cleanField_eq_error : cleanField position cleaner field = .error fault ↔
    ∃ v, stepAlone field.value (cleaner, position) = .error (position, v) ∧
      fault = .unclean field.name position v.kind := by
  simp only [cleanField, stepAlone]
  cases cleaner field.value <;> simp [eq_comm]

/-- A pipeline succeeds with what becomes of each field on its own. -/
theorem runFrom_eq_ok : runFrom position cleaners fields = .ok results ↔
    List.Forall₂ (fun field result => result.name = field.name ∧
      foldFrom position cleaners field.value = .ok result.value) fields results := by
  induction cleaners generalizing position fields with
  | nil =>
      have hsame : (fun field result : Field => result.name = field.name ∧
          foldFrom position [] field.value = .ok result.value) = (· = ·) := by
        funext ⟨name, value⟩ ⟨name', value'⟩
        simp [foldFrom_nil, eq_comm]
      rw [hsame, List.forall₂_eq_eq_eq, runFrom, Except.ok.injEq]
  | cons cleaner rest ih =>
      rw [runFrom, bind_eq_ok]
      simp only [mapM_eq_ok, ih, forall₂_comp, cleanField_eq_ok, foldFrom_cons, bind_eq_ok]
      have hboth (field result : Field) :
          (∃ middle : Field, (middle.name = field.name ∧
            stepAlone field.value (cleaner, position) = .ok middle.value) ∧
            result.name = middle.name ∧
            foldFrom (position + 1) rest middle.value = .ok result.value) ↔
          result.name = field.name ∧ ∃ s, stepAlone field.value (cleaner, position) = .ok s ∧
            foldFrom (position + 1) rest s = .ok result.value := by
        constructor
        · rintro ⟨middle, ⟨hname, hstep⟩, hname', hrest⟩
          exact ⟨hname'.trans hname, _, hstep, hrest⟩
        · rintro ⟨hname, s, hstep, hrest⟩
          exact ⟨⟨field.name, s⟩, ⟨rfl, hstep⟩, hname, hrest⟩
      simp only [hboth]

/-- A pipeline that fails does so with the failure that comes first. -/
theorem firstFailure_of_runFrom (h : runFrom position cleaners fields = .error fault) :
    ∃ field p found, FirstFailure (foldFrom position cleaners) fields field p found ∧
      fault = .unclean field.name p found.kind := by
  induction cleaners generalizing position fields with
  | nil => cases h
  | cons cleaner rest ih =>
      rw [runFrom, bind_eq_error] at h
      rcases h with hstep | ⟨middle, hmiddle, hrest⟩
      · -- a field fails with the first cleaner; the others fail there, or later
        obtain ⟨k, field, hk, hfails, hbefore⟩ := mapM_eq_error.mp hstep
        obtain ⟨v, hv, rfl⟩ := cleanField_eq_error.mp hfails
        refine ⟨field, position, v, ⟨?_, k, hk, ?_⟩, rfl⟩
        · rw [foldFrom_cons, bind_eq_error]
          exact Or.inl hv
        · intro i other p w hi hother
          rw [foldFrom_cons, bind_eq_error] at hother
          rcases hother with hat | ⟨s, -, hlater⟩
          · obtain ⟨rfl, -⟩ := stepAlone_eq_error.mp hat
            refine Or.inr ⟨rfl, Nat.le_of_not_lt fun hlt => ?_⟩
            obtain ⟨c, hc⟩ := hbefore i hlt other hi
            rw [cleanField_eq_error.mpr ⟨w, hat, rfl⟩] at hc
            cases hc
          · exact Or.inl (le_of_foldFrom hlater)
      · -- all fields pass the first cleaner, so each fails as it does with the others
        obtain ⟨field', p, found, ⟨hfails, k, hk, hleast⟩, rfl⟩ := ih hrest
        have hpass := mapM_eq_ok.mp hmiddle
        have hback : List.Forall₂ (fun g f => cleanField position cleaner f = .ok g)
            middle fields := List.Forall₂.flip hpass
        obtain ⟨field, hfield, hclean⟩ := exists_getElem?_of_forall₂ hback hk
        obtain ⟨hname, hstep⟩ := cleanField_eq_ok.mp hclean
        refine ⟨field, p, found, ⟨?_, k, hfield, ?_⟩, by rw [hname]⟩
        · rw [foldFrom_cons, bind_eq_error]
          exact Or.inr ⟨_, hstep, hfails⟩
        · intro i other q w hi hother
          obtain ⟨other', hother', hclean'⟩ := exists_getElem?_of_forall₂ hpass hi
          rw [foldFrom_cons, (cleanField_eq_ok.mp hclean').2] at hother
          exact hleast i other' q w hother' hother

/-- Only one failure comes first. -/
theorem FirstFailure.unique {outcome : String → Except (Nat × Json) String} {field' : Field}
    {p p' : Nat} {found found' : Json} (h : FirstFailure outcome fields field p found)
    (h' : FirstFailure outcome fields field' p' found') :
    field = field' ∧ p = p' ∧ found = found' := by
  obtain ⟨hfails, k, hk, hleast⟩ := h
  obtain ⟨hfails', k', hk', hleast'⟩ := h'
  have hle := hleast k' field' p' found' hk' hfails'
  have hge := hleast' k field p found hk hfails
  obtain rfl : k = k' := by omega
  obtain rfl : field = field' := Option.some.inj (hk.symm.trans hk')
  rw [hfails] at hfails'
  cases hfails'
  exact ⟨rfl, rfl, rfl⟩

theorem run_eq_ok : run cleaners fields = .ok results ↔
    List.Forall₂ (fun field result => result.name = field.name ∧
      fold cleaners field.value = .ok result.value) fields results := runFrom_eq_ok

theorem run_eq_error : run cleaners fields = .error fault ↔
    ∃ field p found, FirstFailure (fold cleaners) fields field p found ∧
      fault = .unclean field.name p found.kind := by
  refine ⟨firstFailure_of_runFrom, ?_⟩
  rintro ⟨field, p, found, hfirst, rfl⟩
  cases hrun : run cleaners fields with
  | ok results =>
      obtain ⟨k, hk, -⟩ := hfirst.first
      obtain ⟨result, -, -, hfold⟩ := exists_getElem?_of_forall₂ (run_eq_ok.mp hrun) hk
      rw [hfirst.fails] at hfold
      cases hfold
  | error f =>
      obtain ⟨field', p', found', hfirst', rfl⟩ := firstFailure_of_runFrom hrun
      obtain ⟨rfl, rfl, rfl⟩ := hfirst.unique hfirst'
      rfl

/-! ## One field, two fields -/

theorem run_single {name value : String} (h : run cleaners [⟨name, value⟩] = .ok results) :
    ∃ s, results = [⟨name, s⟩] := by
  obtain ⟨⟨_, s⟩, _, ⟨rfl, -⟩, hrest, rfl⟩ := List.forall₂_cons_left_iff.mp (run_eq_ok.mp h)
  obtain rfl := List.forall₂_nil_left_iff.mp hrest
  exact ⟨s, rfl⟩

theorem run_pair {name value name' value' : String}
    (h : run cleaners [⟨name, value⟩, ⟨name', value'⟩] = .ok results) :
    ∃ s s', results = [⟨name, s⟩, ⟨name', s'⟩] := by
  obtain ⟨⟨_, s⟩, _, ⟨rfl, -⟩, hrest, rfl⟩ := List.forall₂_cons_left_iff.mp (run_eq_ok.mp h)
  obtain ⟨⟨_, s'⟩, _, ⟨rfl, -⟩, hnone, rfl⟩ := List.forall₂_cons_left_iff.mp hrest
  obtain rfl := List.forall₂_nil_left_iff.mp hnone
  exact ⟨s, s', rfl⟩

theorem runOne_eq_ok {name value s : String} : runOne cleaners ⟨name, value⟩ = .ok s ↔
    run cleaners [⟨name, value⟩] = .ok [⟨name, s⟩] := by
  rw [runOne]
  cases hrun : run cleaners [⟨name, value⟩] with
  | error f => simp [Except.map]
  | ok results =>
      obtain ⟨s', rfl⟩ := run_single hrun
      simp [Except.map]

theorem runOne_eq_error : runOne cleaners field = .error fault ↔
    run cleaners [field] = .error fault := by
  rw [runOne, map_eq_error]

/-! ## Pipelines in parts -/

theorem runFrom_append (more : List Cleaner) :
    runFrom position (cleaners ++ more) fields =
      runFrom position cleaners fields >>= runFrom (position + cleaners.length) more := by
  induction cleaners generalizing position fields with
  | nil => rfl
  | cons cleaner rest ih =>
      rw [List.cons_append, runFrom, runFrom, bind_assoc, List.length_cons,
        Nat.add_comm rest.length, ← Nat.add_assoc]
      simp only [ih]

theorem cleanField_add (count : Nat) : cleanField (position + count) cleaner field =
    (cleanField position cleaner field).mapError (.behind count) := by
  simp only [cleanField]
  cases cleaner field.value <;> rfl

theorem runFrom_add (count : Nat) : runFrom (position + count) cleaners fields =
    (runFrom position cleaners fields).mapError (.behind count) := by
  induction cleaners generalizing position fields with
  | nil => rfl
  | cons cleaner rest ih =>
      have hfields : fields.mapM (cleanField (position + count) cleaner) =
          (fields.mapM (cleanField position cleaner)).mapError (.behind count) := by
        rw [← mapM_mapError]
        simp only [← cleanField_add]
      rw [runFrom, runFrom, hfields, Nat.add_right_comm]
      simp only [ih]
      cases fields.mapM (cleanField position cleaner) <;> rfl

/-! ## Cleaners that always make a text -/

/-- A field with its text changed. -/
def Field.over (f : String → String) (field : Field) : Field :=
  { field with value := f field.value }

theorem runFrom_ofFunction (f : String → String) :
    runFrom position (ofFunction f :: cleaners) fields =
      runFrom (position + 1) cleaners (fields.map (·.over f)) := by
  have hfields : fields.mapM (cleanField position (ofFunction f)) = .ok (fields.map (·.over f)) :=
    mapM_eq_map fun _ _ => rfl
  rw [runFrom, hfields]
  rfl

/-- A cleaner twice in a row leaves what it leaves once, whatever comes after it, exactly if it
changes nothing about the texts that it makes of those that come before it. -/
theorem run_twice_iff (f : String → String) (before : List Cleaner) (fields : List Field) :
    (∀ after, (run (before ++ ofFunction f :: ofFunction f :: after) fields).toOption =
      (run (before ++ ofFunction f :: after) fields).toOption) ↔
    ∀ texts, run before fields = .ok texts →
      ∀ field ∈ texts, f (f field.value) = f field.value := by
  simp only [run, runFrom_append]
  cases runFrom 0 before fields with
  | error fault => exact ⟨fun _ _ h => (nomatch h), fun _ _ => rfl⟩
  | ok texts =>
      have hbind (next : List Field → Except Fault (List Field)) :
          (Except.ok texts >>= next) = next texts := rfl
      simp only [hbind, runFrom_ofFunction, Except.ok.injEq, forall_eq']
      constructor
      · intro hsame field hfield
        have htexts := Option.some.inj (hsame [])
        rw [List.map_map, List.map_inj_left] at htexts
        exact congrArg Field.value (htexts field hfield)
      · intro hsame after
        have htexts : (texts.map (·.over f)).map (·.over f) = texts.map (·.over f) := by
          rw [List.map_map, List.map_inj_left]
          intro field hfield
          exact congrArg (Field.mk field.name) (hsame field hfield)
        rw [htexts, runFrom_add 1]
        cases runFrom (0 + before.length + 1) after (texts.map (·.over f)) <;> rfl

/-- **Pipelines field by field.** A pipeline succeeds exactly if folding its cleaners over each
field on its own makes a text, and then gives these texts in the order of the fields, under their
names. Otherwise the fault is that of the field that fails at the smallest position, and of several
such fields of the first one; it names the field, the position and the kind of what was made there.
A pipeline of two parts is the first part, and then the second part on its results, with the
cleaners of the first part counted in the positions of the second one. -/
theorem pipeline_by_field (cleaners : List Cleaner) (fields : List Field) :
    ((∃ results, run cleaners fields = .ok results) ↔
      ∀ field ∈ fields, ∃ s, fold cleaners field.value = .ok s) ∧
    (∀ results, run cleaners fields = .ok results ↔
      List.Forall₂ (fun field result => result.name = field.name ∧
        fold cleaners field.value = .ok result.value) fields results) ∧
    (∀ fault, run cleaners fields = .error fault ↔
      ∃ field position found, FirstFailure (fold cleaners) fields field position found ∧
        fault = .unclean field.name position found.kind) ∧
    ∀ more, run (cleaners ++ more) fields = run cleaners fields >>= fun results =>
      (run more results).mapError (.behind cleaners.length) := by
  refine ⟨?_, fun _ => run_eq_ok, fun _ => run_eq_error, ?_⟩
  · simp only [run_eq_ok, exists_forall₂]
    refine forall₂_congr fun field _ => ⟨?_, ?_⟩
    · rintro ⟨result, -, hfold⟩
      exact ⟨result.value, hfold⟩
    · rintro ⟨s, hfold⟩
      exact ⟨⟨field.name, s⟩, rfl, hfold⟩
  · intro more
    rw [run, runFrom_append, Nat.zero_add]
    refine bind_congr fun results => ?_
    rw [run, ← runFrom_add, Nat.zero_add]

/-- The second field fails first: with the first cleaner, which the first field passes. -/
example : run [fun s => if s = "y" then .null else .string s, fun _ => .bool true]
    [⟨"a", "x"⟩, ⟨"b", "y"⟩] = .error (.unclean "b" 0 "null") := rfl

end Cleaning

end Intake
