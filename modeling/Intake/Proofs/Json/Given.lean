import Intake.Json.Decode
import Intake.Proofs.Attempts

/-!
# What a value gives for the fields of a record

A record is decoded from what the value gives for each of its fields: an object gives it under
the name of the field, an array at the place of the field. A field that may be left out is none
if nothing or `null` is given for it.
-/

namespace Intake.Json

/-- Setting the value of a key sets it. -/
theorem lookup_setEntry (key : String) (v : Json) (es : List (String × Json)) :
    (setEntry key v es).lookup key = some v := by
  induction es with
  | nil => rw [setEntry, List.lookup_cons_self]
  | cons e rest ih =>
      obtain ⟨key', w⟩ := e
      rw [setEntry]
      by_cases hkey : key' = key
      · rw [if_pos hkey, hkey, List.lookup_cons_self]
      · rw [if_neg hkey, List.lookup_cons, beq_eq_false_iff_ne.mpr (Ne.symm hkey)]
        exact ih

namespace Decode

/-- What a value gives for a field of a record. -/
def Shape.given (s : Shape) (v : Json) (name : String) : Option Json :=
  match v with
  | .object entries => entries.lookup name
  | .array items => ((s.fields.map (·.name)).zip items).lookup name
  | _ => none

/-- Whether a value gives something other than `null` for a field. -/
def Shape.Tells (s : Shape) (v : Json) (name : String) : Prop :=
  ∃ w, s.given v name = some w ∧ w ≠ .null

/-- The entries of a record are what the value gives. -/
theorem given_of_entriesOf {s : Shape} {v : Json} {entries : List (String × Json)}
    (h : entriesOf s v = .ok entries) (name : String) : s.given v name = entries.lookup name := by
  cases v with
  | object es =>
      obtain ⟨_, _, hentries⟩ := bind_eq_ok.mp h
      rw [Shape.given, Except.ok.inj hentries]
  | array items =>
      obtain ⟨_, _, hentries⟩ := bind_eq_ok.mp h
      rw [Shape.given, Except.ok.inj hentries]
  | null => cases h
  | bool b => cases h
  | number n => cases h
  | string t => cases h

section

variable {α : Type} {decode : Decoder α} {entries : List (String × Json)} {name : String}
  {v : Json}

theorem field_eq_ok {a : α} :
    field entries name decode = .ok a ↔ ∃ w, entries.lookup name = some w ∧ decode w = .ok a := by
  rw [field]
  cases entries.lookup name <;> simp

theorem fieldD_eq_ok {a default : α} : fieldD entries name decode default = .ok a ↔
    (∃ w, entries.lookup name = some w ∧ decode w = .ok a) ∨
      entries.lookup name = none ∧ default = a := by
  rw [fieldD]
  cases entries.lookup name <;> simp

theorem string_eq_ok {t : String} : string v = .ok t ↔ v = .string t := by
  cases v <;> simp [string]

theorem list_eq_ok {as : List α} :
    list decode v = .ok as ↔
      ∃ vs, v = .array vs ∧ List.Forall₂ (fun w a => decode w = .ok a) vs as := by
  cases v <;> simp [list, mapM_eq_ok]

/-- An optional value is one if it is not `null`. -/
theorem isSome_of_optional {a : Option α} (h : optional decode v = .ok a) :
    a.isSome = true ↔ v ≠ .null := by
  cases v
  case null =>
    cases h
    simp
  all_goals
    obtain ⟨b, _, rfl⟩ := map_eq_ok.mp h
    simp

/-- An optional field of a record is one if something other than `null` is given for it. -/
theorem isSome_of_fieldD {s : Shape} {a : Option α} (hentries : entriesOf s v = .ok entries)
    (h : fieldD entries name (optional decode) none = .ok a) :
    a.isSome = true ↔ s.Tells v name := by
  rw [Shape.Tells, given_of_entriesOf hentries]
  rcases fieldD_eq_ok.mp h with ⟨w, hw, ha⟩ | ⟨hnone, rfl⟩
  · simp [hw, isSome_of_optional ha]
  · simp [hnone]

end

end Decode

end Intake.Json
