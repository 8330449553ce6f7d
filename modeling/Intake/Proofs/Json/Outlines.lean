import Intake.Json.Reader
import Intake.Proofs.Json.Given

/-!
# What is read by an outline

A text that denotes a value is read by every outline of it, as the value without the texts and keys
that are not looked at. A decoder that looks at no others cannot tell what is read from the value.
-/

namespace Intake.Json

namespace Outline

@[simp] theorem text_whole : whole.text = true := rfl

@[simp] theorem keys_whole : whole.keys = true := rfl

@[simp] theorem entry_whole (key : String) : whole.entry key = whole := rfl

@[simp] theorem first_whole : whole.first = whole := rfl

@[simp] theorem later_whole : whole.later = whole := rfl

/-- Where the keys are not looked at the entries are not either, whatever their keys are. -/
theorem entry_read (o : Outline) (key : String) :
    o.entry (if o.keys then key else "") = o.entry key := by
  cases o <;> rfl

end Outline

mutual

/-- What is left of a value of which an outline is looked at. -/
def prune (o : Outline) : Json → Json
  | .string s => .string (if o.text then s else "")
  | .array items => .array (pruneItems o items)
  | .object entries => .object (pruneEntries o entries)
  | v => v
termination_by structural v => v

def pruneItems (o : Outline) : List Json → List Json
  | [] => []
  | v :: rest => prune o.first v :: pruneItems o.later rest

def pruneEntries (o : Outline) : List (String × Json) → List (String × Json)
  | [] => []
  | (k, v) :: rest => (if o.keys then k else "", prune (o.entry k) v) :: pruneEntries o rest

end

mutual

theorem prune_whole : ∀ v : Json, v.prune .whole = v
  | .null | .bool _ | .number _ | .string _ => rfl
  | .array items => congrArg array (pruneItems_whole items)
  | .object entries => congrArg object (pruneEntries_whole entries)

theorem pruneItems_whole : ∀ vs : List Json, pruneItems .whole vs = vs
  | [] => rfl
  | v :: rest => congrArg₂ List.cons (prune_whole v) (pruneItems_whole rest)

theorem pruneEntries_whole : ∀ es : List (String × Json), pruneEntries .whole es = es
  | [] => rfl
  | (k, v) :: rest =>
      congrArg₂ List.cons (congrArg (Prod.mk k) (prune_whole v)) (pruneEntries_whole rest)

end

/-! ## Reading -/

variable {cs rest : List Char} {v : Json} {s : String} {o : Outline}

theorem stringToken_looked (h : stringToken true cs = some (s, rest)) (looked : Bool) :
    stringToken looked cs = some (if looked then s else "", rest) := by
  cases looked with
  | true => exact h
  | false =>
      unfold stringToken at h ⊢
      split at h
      · obtain ⟨⟨ls, r⟩, hbody, htext⟩ := Option.bind_eq_some_iff.mp h
        obtain ⟨text, _, heq⟩ := Option.bind_eq_some_iff.mp htext
        cases heq
        rw [hbody]
        rfl
      · cases h

/-- Whether what is read with this fuel is read by every outline. -/
structure ReadsPruned (fuel : Nat) : Prop where
  ofValue : ∀ {o cs v rest}, value fuel .whole cs = some (v, rest) →
    value fuel o cs = some (v.prune o, rest)
  ofItems : ∀ {o cs vs rest}, items fuel .whole cs = some (vs, rest) →
    items fuel o cs = some (pruneItems o vs, rest)
  ofMembers : ∀ {o cs es rest}, members fuel .whole cs = some (es, rest) →
    members fuel o cs = some (pruneEntries o es, rest)

namespace ReadsPruned

variable {fuel : Nat} (h : ReadsPruned fuel)

include h

theorem value_succ (hread : value (fuel + 1) .whole cs = some (v, rest)) :
    value (fuel + 1) o cs = some (v.prune o, rest) := by
  -- by what the text begins with: a word, a string, a list, an object, else a number
  unfold value at hread ⊢
  split at hread
  · cases hread
    rfl
  · cases hread
    rfl
  · cases hread
    rfl
  · obtain ⟨⟨s, r⟩, hstring, heq⟩ := Option.map_eq_some_iff.mp hread
    cases heq
    rw [stringToken_looked hstring o.text]
    rfl
  · split at hread
    · cases hread
      rfl
    · obtain ⟨⟨vs, r⟩, hitems, heq⟩ := Option.map_eq_some_iff.mp hread
      cases heq
      rw [h.ofItems hitems]
      rfl
  · split at hread
    · cases hread
      rfl
    · obtain ⟨⟨es, r⟩, hmembers, heq⟩ := Option.map_eq_some_iff.mp hread
      cases heq
      rw [h.ofMembers hmembers]
      rfl
  · obtain ⟨⟨n, r⟩, hnumber, heq⟩ := Option.map_eq_some_iff.mp hread
    cases heq
    rw [hnumber]
    rfl

theorem items_succ {vs : List Json} (hread : items (fuel + 1) .whole cs = some (vs, rest)) :
    items (fuel + 1) o cs = some (pruneItems o vs, rest) := by
  rw [items, Outline.first_whole, Outline.later_whole] at hread
  rw [items]
  cases hvalue : value fuel .whole cs with
  | none =>
      rw [hvalue] at hread
      cases hread
  | some read =>
      obtain ⟨v, more⟩ := read
      rw [hvalue] at hread
      rw [h.ofValue hvalue]
      dsimp only at hread ⊢
      split at hread
      · cases hread
        rfl
      · obtain ⟨⟨vs, r⟩, hitems, heq⟩ := Option.map_eq_some_iff.mp hread
        cases heq
        rw [h.ofItems hitems]
        rfl
      · cases hread

theorem members_succ {es : List (String × Json)}
    (hread : members (fuel + 1) .whole cs = some (es, rest)) :
    members (fuel + 1) o cs = some (pruneEntries o es, rest) := by
  rw [members] at hread ⊢
  cases hkey : stringToken Outline.whole.keys cs with
  | none =>
      rw [hkey] at hread
      cases hread
  | some read =>
      obtain ⟨k, more⟩ := read
      rw [hkey] at hread
      rw [stringToken_looked hkey o.keys]
      dsimp only at hread ⊢
      split at hread
      · rw [Outline.entry_whole] at hread
        rw [Outline.entry_read]
        split at hread
        · cases hread
        · next v more hvalue =>
            rw [h.ofValue hvalue]
            dsimp only
            split at hread
            · cases hread
              rfl
            · obtain ⟨⟨es, r⟩, hmembers, heq⟩ := Option.map_eq_some_iff.mp hread
              cases heq
              rw [h.ofMembers hmembers]
              rfl
            · cases hread
      · cases hread

end ReadsPruned

theorem readsPruned (fuel : Nat) : ReadsPruned fuel := by
  induction fuel with
  | zero => exact ⟨nofun, nofun, nofun⟩
  | succ fuel ih => exact ⟨ih.value_succ, ih.items_succ, ih.members_succ⟩

/-- A text that denotes a value is read by every outline, as what this leaves of the value. -/
theorem readChars_prune (h : readChars .whole cs = some v) (o : Outline) :
    readChars o cs = some (v.prune o) := by
  unfold readChars at h ⊢
  split at h
  · next v rest hvalue =>
      rw [(readsPruned _).ofValue hvalue]
      dsimp only
      split at h
      · next hempty =>
          cases h
          rw [if_pos hempty]
      · cases h
  · cases h

/-- Half a character refuses a text only where it is looked at. -/
example : (readChars .nothing "\"\\ud800\"".toList).isSome = true ∧
    (readChars .whole "\"\\ud800\"".toList).isSome = false := by
  decide +kernel

/-! ## Decoding -/

variable {α : Type} {decode : Decoder α}

/-- Whether a decoder looks at nothing beyond an outline. -/
def Outline.Shows (o : Outline) (decode : Decoder α) : Prop :=
  ∀ v a, decode (v.prune o) = .ok a ↔ decode v = .ok a

theorem pruneItems_each (o : Outline) (vs : List Json) :
    pruneItems (.each o) vs = vs.map (prune o) := by
  induction vs with
  | nil => rfl
  | cons v rest ih => exact congrArg (v.prune o :: ·) ih

namespace Outline.Shows

theorem each (h : o.Shows decode) : (Outline.each o).Shows (Decode.list decode) := by
  intro v as
  rw [Decode.list_eq_ok, Decode.list_eq_ok]
  cases v with
  | array vs =>
      simp only [prune, pruneItems_each, array.injEq, exists_eq_left', List.forall₂_map_left_iff,
        h _ _]
  | _ => simp [prune]

theorem optional (h : o.Shows decode) : o.Shows (Decode.optional decode) := by
  intro v a
  have hsome : (decode (v.prune o)).map some = .ok a ↔ (decode v).map some = .ok a := by
    simp only [map_eq_ok, h v _]
  cases v with
  | null => rfl
  | _ => exact hsome

theorem check (h : o.Shows decode) (v : Json) :
    ((decode (v.prune o)).map fun _ => ()) = .ok () ↔ ((decode v).map fun _ => ()) = .ok () := by
  simp only [map_eq_ok, h v _]

end Outline.Shows

/-! ## Records -/

open Decode

/-- What an outline shows of the entries of a record. -/
def shown (o : Outline) (es : List (String × Json)) : List (String × Json) :=
  es.map fun e => (e.1, e.2.prune (o.entry e.1))

variable {es : List (String × Json)} {name : String}

theorem shown_cons (o : Outline) (key : String) (v : Json) (es : List (String × Json)) :
    shown o ((key, v) :: es) = (key, v.prune (o.entry key)) :: shown o es := rfl

theorem pruneEntries_of_keys (h : o.keys = true) (es : List (String × Json)) :
    pruneEntries o es = shown o es := by
  induction es with
  | nil => rfl
  | cons e rest ih => rw [pruneEntries, if_pos h, ih]; rfl

theorem lookup_shown (o : Outline) (es : List (String × Json)) (name : String) :
    (shown o es).lookup name = (es.lookup name).map (prune (o.entry name)) := by
  induction es with
  | nil => rfl
  | cons e rest ih =>
      obtain ⟨key, v⟩ := e
      rw [shown_cons, List.lookup_cons, List.lookup_cons, ih]
      cases hkey : name == key with
      | true => rw [beq_iff_eq.mp hkey, Option.map_some]
      | false => rfl

theorem lookup_shown_whole (h : o.entry name = .whole) :
    (shown o es).lookup name = es.lookup name := by
  rw [lookup_shown, h, funext prune_whole]
  exact Option.map_id'

theorem field_shown_whole (h : o.entry name = .whole) :
    field (shown o es) name decode = field es name decode := by
  rw [field, field, lookup_shown_whole h]

theorem fieldD_shown_whole (h : o.entry name = .whole) {default : α} :
    fieldD (shown o es) name decode default = fieldD es name decode default := by
  rw [fieldD, fieldD, lookup_shown_whole h]

theorem fieldD_shown {inner : Outline} (h : inner.Shows decode) (hinner : o.entry name = inner)
    {default a : α} :
    fieldD (shown o es) name decode default = .ok a ↔ fieldD es name decode default = .ok a := by
  rw [fieldD, fieldD, lookup_shown, hinner]
  cases es.lookup name with
  | none => rfl
  | some v => exact h v a

/-- Whether the check of a field looks at nothing beyond an outline. -/
def Decode.Field.Fits (f : Field) (o : Outline) : Prop :=
  ∀ v, f.check (v.prune o) = .ok () ↔ f.check v = .ok ()

theorem Decode.Field.fits_whole (f : Field) : f.Fits .whole := fun v => by rw [prune_whole]

theorem checkEntries_shown {fields : List Field} (h : ∀ f ∈ fields, f.Fits (o.entry f.name))
    (seen : List String) (es : List (String × Json)) :
    checkEntries fields seen (shown o es) = .ok () ↔ checkEntries fields seen es = .ok () := by
  induction es generalizing seen with
  | nil => rfl
  | cons e rest ih =>
      obtain ⟨k, v⟩ := e
      rw [shown_cons, checkEntries, checkEntries]
      cases hfind : fields.find? (·.name == k) with
      | none => exact ih seen
      | some f =>
          have hname := List.find?_some hfind
          have hcheck := h f (List.mem_of_find?_eq_some hfind) v
          rw [beq_iff_eq.mp hname] at hcheck
          by_cases hseen : k ∈ seen
          · simp only [if_pos hseen]
          · simp only [if_neg hseen, bind_eq_ok]
            exact exists_congr fun _ => and_congr hcheck (ih (k :: seen))

theorem checkMissing_shown (fields : List Field) (es : List (String × Json)) :
    checkMissing fields (shown o es) = checkMissing fields es := by
  simp only [checkMissing, lookup_shown, Option.isNone_map]

theorem checkItems_prune (s : Shape) {g : String → Outline} {fields : List Field}
    (h : ∀ f ∈ fields, f.Fits (g f.name)) (index : Nat) (vs : List Json) :
    checkItems s index fields (pruneItems (.fields (fields.map fun f => (f.name, g f.name))) vs) =
      .ok () ↔ checkItems s index fields vs = .ok () := by
  induction fields generalizing index vs with
  | nil => cases vs <;> simp [pruneItems, checkItems]
  | cons f fs ih =>
      obtain ⟨hf, hfs⟩ := List.forall_mem_cons.mp h
      cases vs with
      | nil => rw [pruneItems]
      | cons v vs =>
          rw [pruneItems, checkItems, checkItems, bind_eq_ok, bind_eq_ok]
          exact exists_congr fun _ => and_congr (hf v) (ih hfs (index + 1) vs)

theorem zip_prune (g : String → Outline) (fields : List Field) (vs : List Json) :
    (fields.map (·.name)).zip
        (pruneItems (.fields (fields.map fun f => (f.name, g f.name))) vs) =
      ((fields.map (·.name)).zip vs).map fun e => (e.1, e.2.prune (g e.1)) := by
  induction fields generalizing vs with
  | nil => rfl
  | cons f fields ih =>
      cases vs with
      | nil => rfl
      | cons v vs => exact congrArg ((f.name, v.prune (g f.name)) :: ·) (ih vs)

/-- What the outline of a record shows of a field. -/
def innerOf (inner : List (String × Outline)) (name : String) : Outline :=
  (inner.lookup name).getD .whole

theorem entry_outline {s : Shape} {f : Field} (hf : f ∈ s.fields)
    (inner : List (String × Outline)) : (s.outline inner).entry f.name = innerOf inner f.name := by
  have hlookup : (s.fields.map fun f => (f.name, innerOf inner f.name)).lookup f.name =
      some (innerOf inner f.name) := by
    generalize s.fields = fields at hf
    induction fields with
    | nil => cases hf
    | cons g fields ih =>
        rw [List.map_cons, List.lookup_cons]
        cases hname : f.name == g.name with
        | true => rw [beq_iff_eq.mp hname]
        | false =>
            refine ih ((List.mem_cons.mp hf).resolve_left ?_)
            rintro rfl
            exact absurd hname (by simp)
  exact congrArg (·.getD .nothing) hlookup

theorem checkObject_shown {fields : List Field} (h : ∀ f ∈ fields, f.Fits (o.entry f.name))
    (es : List (String × Json)) :
    checkObject fields (shown o es) = .ok () ↔ checkObject fields es = .ok () := by
  rw [checkObject, checkObject, bind_eq_ok, bind_eq_ok]
  exact exists_congr fun _ => and_congr (checkEntries_shown h [] es) (by rw [checkMissing_shown])

theorem entriesOf_prune {s : Shape} {inner : List (String × Outline)}
    (h : ∀ f ∈ s.fields, f.Fits (innerOf inner f.name)) {v : Json} {es' : List (String × Json)} :
    entriesOf s (v.prune (s.outline inner)) = .ok es' ↔
      ∃ es, entriesOf s v = .ok es ∧ shown (s.outline inner) es = es' := by
  cases v with
  | object es =>
      have hfits : ∀ f ∈ s.fields, f.Fits ((s.outline inner).entry f.name) := fun f hf => by
        rw [entry_outline hf]
        exact h f hf
      rw [prune, pruneEntries_of_keys rfl, entriesOf, entriesOf, bind_eq_ok]
      simp only [bind_eq_ok]
      constructor
      · rintro ⟨_, hcheck, heq⟩
        exact ⟨es, ⟨(), (checkObject_shown hfits es).mp hcheck, rfl⟩, Except.ok.inj heq⟩
      · rintro ⟨_, ⟨_, hcheck, heq⟩, rfl⟩
        cases heq
        exact ⟨(), (checkObject_shown hfits es).mpr hcheck, rfl⟩
  | array vs =>
      have hzip : (s.fields.map (·.name)).zip (pruneItems (s.outline inner) vs) =
          shown (s.outline inner) ((s.fields.map (·.name)).zip vs) := by
        refine (zip_prune (innerOf inner) s.fields vs).trans (List.map_congr_left ?_)
        rintro ⟨name, v⟩ hmem
        obtain ⟨f, hf, rfl⟩ := List.mem_map.mp (List.of_mem_zip hmem).1
        rw [entry_outline hf]
      rw [prune, entriesOf, entriesOf, bind_eq_ok]
      simp only [bind_eq_ok, hzip]
      constructor
      · rintro ⟨_, hcheck, heq⟩
        exact ⟨_, ⟨(), (checkItems_prune s h 0 vs).mp hcheck, rfl⟩, Except.ok.inj heq⟩
      · rintro ⟨_, ⟨_, hcheck, heq⟩, rfl⟩
        cases heq
        exact ⟨(), (checkItems_prune s h 0 vs).mpr hcheck, rfl⟩
  | _ => simp [prune, entriesOf]

/-- A record is decoded alike if what is made of its entries is. -/
theorem Outline.shows_record {s : Shape} {inner : List (String × Outline)}
    (h : ∀ f ∈ s.fields, f.Fits (innerOf inner f.name))
    {next : List (String × Json) → Except Mismatch α}
    (hnext : ∀ es a, next (shown (s.outline inner) es) = .ok a ↔ next es = .ok a) :
    (s.outline inner).Shows fun v => entriesOf s v >>= next := by
  intro v a
  simp only [bind_eq_ok, entriesOf_prune h]
  constructor
  · rintro ⟨_, ⟨es, hes, rfl⟩, ha⟩
    exact ⟨es, hes, (hnext es a).mp ha⟩
  · rintro ⟨es, hes, ha⟩
    exact ⟨_, ⟨es, hes, rfl⟩, (hnext es a).mpr ha⟩

end Intake.Json
