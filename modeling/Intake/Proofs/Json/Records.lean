import Intake.Json.Times
import Intake.Proofs.Attempts
import Intake.Proofs.Time.Texts

/-!
# Decoding what was encoded

An object is taken as a record if no key occurs twice, every entry passes the check of its
field and no field is missing. The values of the simple types are decoded from what they are
encoded as.
-/

namespace Intake.Json.Decode

/-! ## Records -/

/-- Whether every entry that belongs to a field passes the check of that field. -/
def Passes (fields : List Field) (entries : List (String × Json)) : Prop :=
  ∀ e ∈ entries, ∀ f, fields.find? (·.name == e.1) = some f → f.check e.2 = .ok ()

section passes

variable {fields : List Field} {k : String} {v : Json} {rest : List (String × Json)}

theorem passes_nil : Passes fields [] := fun _ h => nomatch h

theorem Passes.cons {f : Field} (hrest : Passes fields rest)
    (hfind : fields.find? (·.name == k) = some f) (hcheck : f.check v = .ok ()) :
    Passes fields ((k, v) :: rest) := by
  intro e he f' hf'
  rcases List.mem_cons.mp he with rfl | he
  · obtain rfl := Option.some.inj (hfind.symm.trans hf')
    exact hcheck
  · exact hrest e he f' hf'

/-- An entry that belongs to none of the fields is passed over. -/
theorem Passes.skip (hrest : Passes fields rest)
    (hfind : fields.find? (·.name == k) = none) : Passes fields ((k, v) :: rest) := by
  intro e he f' hf'
  rcases List.mem_cons.mp he with rfl | he
  · cases hfind.symm.trans hf'
  · exact hrest e he f' hf'

theorem Passes.append {front back : List (String × Json)} (hfront : Passes fields front)
    (hback : Passes fields back) : Passes fields (front ++ back) := by
  intro e he
  rcases List.mem_append.mp he with he | he
  · exact hfront e he
  · exact hback e he

end passes

theorem checkEntries_ok {fields : List Field} {seen : List String}
    {entries : List (String × Json)} (hnodup : (entries.map (·.1)).Nodup)
    (hseen : ∀ e ∈ entries, e.1 ∉ seen) (hpasses : Passes fields entries) :
    checkEntries fields seen entries = .ok () := by
  induction entries generalizing seen with
  | nil => rfl
  | cons e rest ih =>
      obtain ⟨k, v⟩ := e
      rw [List.map_cons, List.nodup_cons] at hnodup
      have hrest : Passes fields rest := fun e he => hpasses e (List.mem_cons_of_mem _ he)
      rw [checkEntries]
      split
      · exact ih hnodup.2 (fun e he => hseen e (List.mem_cons_of_mem _ he)) hrest
      · next f hfind =>
          have hcheck : f.check v = .ok () := hpasses (k, v) List.mem_cons_self f hfind
          rw [if_neg (hseen (k, v) List.mem_cons_self), hcheck]
          refine ih hnodup.2 (fun e he hmem => ?_) hrest
          rcases List.mem_cons.mp hmem with heq | hmem
          · exact hnodup.1 (List.mem_map.mpr ⟨e, he, heq⟩)
          · exact hseen e (List.mem_cons_of_mem _ he) hmem

theorem checkMissing_ok {fields : List Field} {entries : List (String × Json)}
    (h : ∀ f ∈ fields, f.inObject = true → (entries.lookup f.name).isSome = true) :
    checkMissing fields entries = .ok () := by
  rw [checkMissing]
  split
  · next f hfind =>
      have hmissing := List.find?_some hfind
      rw [Bool.and_eq_true] at hmissing
      have hthere := h f (List.mem_of_find?_eq_some hfind) hmissing.1
      rw [Option.isNone_iff_eq_none.mp hmissing.2] at hthere
      cases hthere
  · rfl

theorem checkObject_ok {fields : List Field} {entries : List (String × Json)}
    (hnodup : (entries.map (·.1)).Nodup) (hpasses : Passes fields entries)
    (hthere : ∀ f ∈ fields, f.inObject = true → (entries.lookup f.name).isSome = true) :
    checkObject fields entries = .ok () := by
  rw [checkObject, checkEntries_ok hnodup (fun _ _ => List.not_mem_nil) hpasses]
  exact checkMissing_ok hthere

/-- Whether entries are a record with these fields. -/
structure Record (fields : List Field) (entries : List (String × Json)) : Prop where
  nodup : (entries.map (·.1)).Nodup
  passes : Passes fields entries
  complete : ∀ f ∈ fields, f.inObject = true → (entries.lookup f.name).isSome = true

theorem Record.check {fields : List Field} {entries : List (String × Json)}
    (h : Record fields entries) : checkObject fields entries = .ok () :=
  checkObject_ok h.nodup h.passes h.complete

theorem entriesOf_object {s : Shape} {entries : List (String × Json)}
    (hnodup : (entries.map (·.1)).Nodup) (hpasses : Passes s.fields entries)
    (hthere : ∀ f ∈ s.fields, f.inObject = true → (entries.lookup f.name).isSome = true) :
    entriesOf s (.object entries) = .ok entries := by
  rw [entriesOf, checkObject_ok hnodup hpasses hthere]
  rfl

variable {α : Type} {decode : Decoder α} {v : Json} {a : α}

theorem check_required (name : String) (h : decode v = .ok a) :
    (Field.required name decode).check v = .ok () := by
  change (decode v).map _ = _
  rw [h]
  rfl

theorem check_defaulted (name : String) (h : decode v = .ok a) :
    (Field.defaulted name decode).check v = .ok () :=
  check_required name h

theorem check_nullable (name : String) {a : Option α} (h : optional decode v = .ok a) :
    (Field.nullable name decode).check v = .ok () :=
  check_required name h

theorem field_of_lookup {entries : List (String × Json)} {name : String}
    (hlookup : entries.lookup name = some v) (h : decode v = .ok a) :
    field entries name decode = .ok a := by
  rw [field, hlookup]
  exact h

theorem fieldD_of_lookup {entries : List (String × Json)} {name : String} (default : α)
    (hlookup : entries.lookup name = some v) (h : decode v = .ok a) :
    fieldD entries name decode default = .ok a := by
  rw [fieldD, hlookup]
  exact h

theorem fieldD_of_none {entries : List (String × Json)} {name : String} (default : α)
    (hlookup : entries.lookup name = none) :
    fieldD entries name decode default = .ok default := by
  rw [fieldD, hlookup]

/-! ## Values -/

theorem optional_of_ne_null (hnull : v ≠ .null) (h : decode v = .ok a) :
    optional decode v = .ok (some a) := by
  cases v
  case null => exact absurd rfl hnull
  all_goals exact congrArg (Except.map some) h

/-- An optional value is decoded from what it is encoded as. -/
theorem optional_ofOption {encode : α → Json} {o : Option α}
    (hnull : ∀ a ∈ o, encode a ≠ .null) (h : ∀ a ∈ o, decode (encode a) = .ok a) :
    optional decode (ofOption encode o) = .ok o := by
  cases o with
  | none => rfl
  | some a => exact optional_of_ne_null (hnull a rfl) (h a rfl)

/-- An optional value is decoded from its entry, or from there being none. -/
theorem fieldD_optional {entries : List (String × Json)} {name : String} {encode : α → Json}
    {o : Option α} (hlookup : entries.lookup name = o.map encode)
    (hnull : ∀ a ∈ o, encode a ≠ .null) (h : ∀ a ∈ o, decode (encode a) = .ok a) :
    fieldD entries name (optional decode) none = .ok o := by
  cases o with
  | none => exact fieldD_of_none none hlookup
  | some a =>
      exact fieldD_of_lookup none hlookup (optional_of_ne_null (hnull a rfl) (h a rfl))

/-- A list is decoded from what its members are encoded as. -/
theorem list_map {encode : α → Json} {as : List α} (h : ∀ a ∈ as, decode (encode a) = .ok a) :
    list decode (.array (as.map encode)) = .ok as := by
  change (as.map encode).mapM decode = .ok as
  exact mapM_eq_ok.mpr (List.forall₂_map_left_iff.mpr (List.forall₂_same.mpr h))

theorem string_string (s : String) : string (.string s) = .ok s := rfl

theorem instant_toJson (t : Time.Instant) : instant t.toJson = .ok t := by
  rw [Time.Instant.toJson, instant, t.readRelaxed_text]

theorem nat32_integer {n : Nat} (h : n < 4294967296) :
    nat32 (.number (.integer n)) = .ok n := by
  rw [nat32, natural]
  exact if_pos ⟨Int.natCast_nonneg n, Int.ofNat_lt.mpr h⟩

end Intake.Json.Decode

namespace Intake.Json

/-! ## Entries in another order -/

section order

variable {es es' : List (String × Json)}

/-- Where no key occurs twice, the order of the entries makes no difference to their values. -/
theorem lookup_perm (h : es.Perm es') (hnodup : (es.map (·.1)).Nodup) (key : String) :
    es.lookup key = es'.lookup key := by
  induction h with
  | nil => rfl
  | cons e _ ih =>
      rw [List.lookup_cons, List.lookup_cons, ih (List.nodup_cons.mp hnodup).2]
  | swap e e' rest =>
      rw [List.lookup_cons, List.lookup_cons, List.lookup_cons, List.lookup_cons]
      have hne : e'.1 ≠ e.1 := by
        intro heq
        exact (List.nodup_cons.mp hnodup).1 (List.mem_cons.mpr (Or.inl heq))
      cases he : key == e.1 with
      | false => rfl
      | true =>
          cases he' : key == e'.1 with
          | false => rfl
          | true => exact absurd ((beq_iff_eq.mp he').symm.trans (beq_iff_eq.mp he)) hne
  | trans hfirst _ ih ih' =>
      exact (ih hnodup).trans (ih' ((hfirst.map _).nodup_iff.mp hnodup))

theorem Decode.Record.perm {fields : List Decode.Field} (h : Decode.Record fields es')
    (hperm : es.Perm es') : Decode.Record fields es where
  nodup := (hperm.map _).nodup_iff.mpr h.nodup
  passes e he := h.passes e (hperm.mem_iff.mp he)
  complete f hf hin := by
    rw [lookup_perm hperm ((hperm.map _).nodup_iff.mpr h.nodup)]
    exact h.complete f hf hin

/-- A new key is put somewhere among the others. -/
theorem insertFirst_perm {key : String} {v : Json} (hnew : key ∉ es.map (·.1)) :
    (insertFirst key v es).Perm ((key, v) :: es) := by
  induction es with
  | nil => exact .refl _
  | cons e rest ih =>
      obtain ⟨key', v'⟩ := e
      rw [List.map_cons, List.mem_cons, not_or] at hnew
      rw [insertFirst, if_neg hnew.1]
      split
      · exact .refl _
      · exact ((ih hnew.2).cons _).trans (.swap _ _ _)

/-- Where no key occurs twice, the canonical form has the same entries in another order, with
their values in canonical form. -/
theorem canonicalEntries_perm (hnodup : (es.map (·.1)).Nodup) :
    (canonicalEntries es).Perm (es.map fun e => (e.1, e.2.canonical)) := by
  induction es with
  | nil => exact .refl _
  | cons e rest ih =>
      obtain ⟨key, v⟩ := e
      rw [List.map_cons, List.nodup_cons] at hnodup
      have hrest := ih hnodup.2
      have hnew : key ∉ (canonicalEntries rest).map (·.1) := by
        rw [(hrest.map _).mem_iff, List.map_map]
        exact hnodup.1
      exact (insertFirst_perm hnew).trans (hrest.cons _)

/-- Setting a value that is there already changes nothing. -/
theorem setEntry_of_lookup {key : String} {v : Json} (h : es.lookup key = some v) :
    setEntry key v es = es := by
  induction es with
  | nil => cases h
  | cons e rest ih =>
      obtain ⟨key', v'⟩ := e
      rw [List.lookup_cons] at h
      rw [setEntry]
      by_cases hkey : key' = key
      · subst hkey
        rw [beq_self_eq_true] at h
        rw [if_pos rfl, Option.some.inj h]
      · rw [beq_eq_false_iff_ne.mpr (Ne.symm hkey)] at h
        rw [if_neg hkey, ih h]

end order

end Intake.Json
