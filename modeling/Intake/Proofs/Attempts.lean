import Mathlib.Data.List.Forall2

/-!
# Attempts one after the other

Each member of a list is attempted, up to the first one that fails. All succeed if each of them
does; otherwise the failure is that of the first member that fails, and no later one is attempted.
-/

namespace Intake

section

variable {α β ε : Type} {f : α → Except ε β} {as : List α} {bs : List β} {e : ε}

theorem bind_eq_ok {r : Except ε α} {next : α → Except ε β} {b : β} :
    r >>= next = .ok b ↔ ∃ a, r = .ok a ∧ next a = .ok b := by
  cases r <;> simp [bind, Except.bind]

theorem bind_eq_error {r : Except ε α} {next : α → Except ε β} :
    r >>= next = .error e ↔ r = .error e ∨ ∃ a, r = .ok a ∧ next a = .error e := by
  cases r <;> simp [bind, Except.bind]

theorem map_eq_ok {g : α → β} {r : Except ε α} {b : β} :
    r.map g = .ok b ↔ ∃ a, r = .ok a ∧ g a = b := by
  cases r <;> simp [Except.map]

theorem map_eq_error {g : α → β} {r : Except ε α} : r.map g = .error e ↔ r = .error e := by
  cases r <;> simp [Except.map]

theorem eq_ok_of_toOption {r : Except ε α} {a : α} (h : r.toOption = some a) : r = .ok a := by
  cases r with
  | ok b => exact congrArg Except.ok (Option.some.inj h)
  | error e => cases h

theorem mapError_eq_ok {ε' : Type} {g : ε → ε'} {r : Except ε α} {a : α} :
    r.mapError g = .ok a ↔ r = .ok a := by
  cases r <;> simp [Except.mapError]

/-- All attempts succeed with what each of them gives. -/
theorem mapM_eq_ok : as.mapM f = .ok bs ↔ List.Forall₂ (fun a b => f a = .ok b) as bs := by
  induction as generalizing bs with
  | nil => cases bs <;> simp [pure, Except.pure]
  | cons a rest ih =>
      rw [List.mapM_cons, List.forall₂_cons_left_iff]
      cases ha : f a with
      | error e => simp [bind, Except.bind]
      | ok b =>
          cases hrest : rest.mapM f with
          | error e => simp [bind, Except.bind, ← ih, hrest]
          | ok bs' => simp [bind, Except.bind, pure, Except.pure, ← ih, hrest, eq_comm]

theorem mapM_eq_map {g : α → β} (h : ∀ a ∈ as, f a = .ok (g a)) :
    as.mapM f = .ok (as.map g) :=
  mapM_eq_ok.mpr (List.forall₂_map_right_iff.mpr (List.forall₂_same.mpr h))

/-- The attempts fail as the first member that fails. -/
theorem mapM_eq_error : as.mapM f = .error e ↔ ∃ (k : Nat) (a : α), as[k]? = some a ∧
    f a = .error e ∧ ∀ i < k, ∀ b, as[i]? = some b → ∃ c, f b = .ok c := by
  induction as with
  | nil => simp [pure, Except.pure]
  | cons a rest ih =>
      rw [List.mapM_cons]
      cases ha : f a with
      | error e' =>
          constructor
          · intro h
            cases h
            exact ⟨0, a, rfl, ha, fun i hi => absurd hi (Nat.not_lt_zero i)⟩
          · rintro ⟨k, b, hb, hfails, hbefore⟩
            cases k with
            | zero =>
                cases hb
                rw [ha] at hfails
                cases hfails
                rfl
            | succ k =>
                obtain ⟨c, hc⟩ := hbefore 0 (Nat.zero_lt_succ k) a rfl
                rw [ha] at hc
                cases hc
      | ok c =>
          have hgo : (Except.ok c >>= fun c => rest.mapM f >>= fun cs => pure (c :: cs)) =
              .error e ↔ rest.mapM f = .error e := by
            cases rest.mapM f <;> simp [bind, Except.bind, pure, Except.pure]
          rw [hgo, ih]
          constructor
          · rintro ⟨k, b, hb, hfails, hbefore⟩
            refine ⟨k + 1, b, hb, hfails, fun i hi b' hb' => ?_⟩
            cases i with
            | zero =>
                cases hb'
                exact ⟨c, ha⟩
            | succ i => exact hbefore i (Nat.lt_of_succ_lt_succ hi) b' hb'
          · rintro ⟨k, b, hb, hfails, hbefore⟩
            cases k with
            | zero =>
                cases hb
                rw [ha] at hfails
                cases hfails
            | succ k =>
                exact ⟨k, b, hb, hfails, fun i hi => hbefore (i + 1) (Nat.succ_lt_succ hi)⟩

/-- Failures that are told otherwise, one by one or in the end. -/
theorem mapM_mapError {ε' : Type} (g : ε → ε') :
    (as.mapM fun a => (f a).mapError g) = (as.mapM f).mapError g := by
  induction as with
  | nil => rfl
  | cons a rest ih =>
      rw [List.mapM_cons, List.mapM_cons, ih]
      cases f a with
      | error e => rfl
      | ok b => cases rest.mapM f <;> rfl

end

section

variable {α β γ : Type} {r : α → β → Prop} {s : β → γ → Prop} {as : List α} {bs : List β}
  {cs : List γ}

theorem exists_forall₂ : (∃ bs, List.Forall₂ r as bs) ↔ ∀ a ∈ as, ∃ b, r a b := by
  induction as with
  | nil => simp
  | cons a rest ih =>
      rw [List.forall_mem_cons, ← ih]
      constructor
      · rintro ⟨_, h⟩
        obtain ⟨b, bs, hab, hrest, -⟩ := List.forall₂_cons_left_iff.mp h
        exact ⟨⟨b, hab⟩, bs, hrest⟩
      · rintro ⟨⟨b, hab⟩, bs, hrest⟩
        exact ⟨b :: bs, .cons hab hrest⟩

/-- Members are related through those of a list in between. -/
theorem forall₂_comp : (∃ bs, List.Forall₂ r as bs ∧ List.Forall₂ s bs cs) ↔
    List.Forall₂ (fun a c => ∃ b, r a b ∧ s b c) as cs := by
  constructor
  · rintro ⟨bs, hr, hs⟩
    induction hr generalizing cs with
    | nil =>
        cases hs
        exact .nil
    | cons hab _ ih =>
        cases hs with
        | cons hbc hs => exact .cons ⟨_, hab, hbc⟩ (ih hs)
  · intro h
    induction h with
    | nil => exact ⟨[], .nil, .nil⟩
    | cons hac _ ih =>
        obtain ⟨b, hab, hbc⟩ := hac
        obtain ⟨bs, hr, hs⟩ := ih
        exact ⟨b :: bs, .cons hab hr, .cons hbc hs⟩

/-- Members of two lists that stand at the same place. -/
theorem exists_getElem?_of_forall₂ (h : List.Forall₂ r as bs) {i : Nat} {a : α}
    (ha : as[i]? = some a) : ∃ b, bs[i]? = some b ∧ r a b := by
  induction h generalizing i with
  | nil => cases ha
  | cons hab _ ih =>
      cases i with
      | zero =>
          cases ha
          exact ⟨_, rfl, hab⟩
      | succ i => exact ih ha

end

end Intake
