import Intake.Proofs.Attempts
import Intake.Proofs.Time.Window

/-!
# Windows are exact hulls

The window of some time stamps depends on the instants that they denote, and on nothing else about
them: not on their order, not on how often one of them occurs, and not on the notations that they
are written in. The windows of two lists of stamps have in their bounds all that is needed for the
window of the lists one after the other.
-/

namespace Intake

namespace Time

theorem Instant.le_antisymm {s t : Instant} (hst : s ≤ t) (hts : t ≤ s) : s = t := by
  obtain ⟨seconds, nanos, _⟩ := s
  obtain ⟨seconds', nanos', _⟩ := t
  have hst' : seconds < seconds' ∨ (seconds = seconds' ∧ nanos ≤ nanos') := hst
  have hts' : seconds' < seconds ∨ (seconds' = seconds ∧ nanos' ≤ nanos) := hts
  obtain ⟨rfl, rfl⟩ : seconds = seconds' ∧ nanos = nanos' := by omega
  rfl

namespace Window

variable {v w : Window} {ss ts : List Instant}

/-! ## Instants that span one window -/

/-- A window spans all instants between those that it spans. -/
theorem Spans.between (h : w.Spans ss) (hsub : ss ⊆ ts)
    (hbetween : ∀ t ∈ ts, ∃ low ∈ ss, ∃ high ∈ ss, low ≤ t ∧ t ≤ high) : w.Spans ts := by
  rcases h with ⟨rfl, rfl⟩ | ⟨low, hlow, high, hhigh, rfl, hbounds⟩
  · refine Or.inl ⟨List.eq_nil_iff_forall_not_mem.mpr fun t ht => ?_, rfl⟩
    obtain ⟨low, hlow, -⟩ := hbetween t ht
    cases hlow
  · refine Or.inr ⟨low, hsub hlow, high, hsub hhigh, rfl, fun t ht => ?_⟩
    obtain ⟨low', hlow', high', hhigh', hfrom, hto⟩ := hbetween t ht
    exact ⟨Instant.le_trans (hbounds low' hlow').1 hfrom,
      Instant.le_trans hto (hbounds high' hhigh').2⟩

/-- Instants are spanned by one window. -/
theorem Spans.unique (hv : v.Spans ts) (hw : w.Spans ts) : v = w := by
  rcases hv with ⟨hnil, rfl⟩ | ⟨low, hlow, high, hhigh, rfl, hbounds⟩
  · rcases hw with ⟨-, rfl⟩ | ⟨low, hlow, -⟩
    · rfl
    · rw [hnil] at hlow
      cases hlow
  · rcases hw with ⟨hnil, -⟩ | ⟨low', hlow', high', hhigh', rfl, hbounds'⟩
    · rw [hnil] at hlow
      cases hlow
    · rw [Instant.le_antisymm (hbounds low' hlow').1 (hbounds' low hlow).1,
        Instant.le_antisymm (hbounds' high hhigh).2 (hbounds high' hhigh').2]

theorem eq_hull_iff : w = hull ts ↔ w.Spans ts := by
  constructor
  · rintro rfl
    exact spans_hull ts
  · intro h
    exact h.unique (spans_hull ts)

/-- The hull of some instants depends on which ones there are, and not on their order or on how
often they occur. -/
theorem hull_congr (h : ∀ t, t ∈ ss ↔ t ∈ ts) : hull ss = hull ts := by
  refine eq_hull_iff.mpr ((spans_hull ss).between (fun t ht => (h t).mp ht) fun t ht => ?_)
  exact ⟨t, (h t).mpr ht, t, (h t).mpr ht, Instant.le_refl t, Instant.le_refl t⟩

/-! ## Bounds -/

/-- The first and the last instant of a window, as far as known. -/
def bounds (w : Window) : List Instant := w.createdAt.toList ++ w.modifiedAt.toList

/-- The bounds of a window are among the instants that it spans. -/
theorem Spans.bounds_subset (h : w.Spans ts) : w.bounds ⊆ ts := by
  rcases h with ⟨-, rfl⟩ | ⟨low, hlow, high, hhigh, rfl, -⟩
  · exact List.nil_subset ts
  · exact List.cons_subset.mpr ⟨hlow, List.cons_subset.mpr ⟨hhigh, List.nil_subset ts⟩⟩

/-- What a window spans lies between its bounds. -/
theorem Spans.exists_bounds (h : w.Spans ts) {t : Instant} (ht : t ∈ ts) :
    ∃ low ∈ w.bounds, ∃ high ∈ w.bounds, low ≤ t ∧ t ≤ high := by
  rcases h with ⟨rfl, -⟩ | ⟨low, -, high, -, rfl, hbounds⟩
  · cases ht
  · exact ⟨low, List.mem_cons_self, high, List.mem_cons_of_mem low List.mem_cons_self,
      hbounds t ht⟩

theorem hull_append (ss ts : List Instant) :
    hull (ss ++ ts) = hull ((hull ss).bounds ++ (hull ts).bounds) := by
  have hss := spans_hull ss
  have hts := spans_hull ts
  refine (eq_hull_iff.mpr ((spans_hull _).between ?_ fun t ht => ?_)).symm
  · exact List.append_subset.mpr
      ⟨List.Subset.trans hss.bounds_subset (List.subset_append_left ss ts),
        List.Subset.trans hts.bounds_subset (List.subset_append_right ss ts)⟩
  · rcases List.mem_append.mp ht with ht | ht
    · obtain ⟨low, hlow, high, hhigh, hle⟩ := hss.exists_bounds ht
      exact ⟨low, List.mem_append_left _ hlow, high, List.mem_append_left _ hhigh, hle⟩
    · obtain ⟨low, hlow, high, hhigh, hle⟩ := hts.exists_bounds ht
      exact ⟨low, List.mem_append_right _ hlow, high, List.mem_append_right _ hhigh, hle⟩

/-- A window that spans some instants is empty if there are none, and has both bounds otherwise. -/
theorem Spans.isEmpty_iff (h : w.Spans ts) :
    (w.isEmpty = true ↔ ts = []) ∧ (w.createdAt.isSome = true ↔ ts ≠ []) ∧
      (w.modifiedAt.isSome = true ↔ ts ≠ []) := by
  rcases h with ⟨rfl, rfl⟩ | ⟨low, hlow, high, -, rfl, -⟩
  · simp [isEmpty, empty]
  · simp [isEmpty, List.ne_nil_of_mem hlow]

end Window

end Time

/-! ## Stamps -/

open Time Window

variable {stamps stamps' : List String} {ts : List Instant}

/-- All stamps are read, one after the other, up to the first that is no time. -/
theorem windowOf_eq (stamps : List String) :
    windowOf stamps = (stamps.mapM validStamp).map hull := by
  have hread : (readStamps stamps).mapError (fun text => .unreadable (.notAStamp text)) =
      stamps.mapM validStamp := by
    induction stamps with
    | nil => rfl
    | cons s rest ih =>
        rw [readStamps, List.mapM_cons, ← ih, validStamp]
        cases readStamp s with
        | none => rfl
        | some t => cases readStamps rest <;> rfl
  rw [windowOf, ofStamps, ← hread]
  cases readStamps stamps <;> rfl

/-- Whether these are the instants that stamps denote, in their order. -/
def Denote (stamps : List String) (ts : List Instant) : Prop :=
  List.Forall₂ (fun s t => validStamp s = .ok t) stamps ts

theorem windowOf_eq_ok_iff {w : Window} :
    windowOf stamps = .ok w ↔ ∃ ts, Denote stamps ts ∧ w.Spans ts := by
  rw [windowOf_eq, map_eq_ok]
  simp only [mapM_eq_ok, Denote, ← eq_hull_iff, eq_comm (a := w)]

theorem validStamp_eq_ok {s : String} {t : Instant} :
    validStamp s = .ok t ↔ readStamp s = some t := by
  rw [validStamp]
  cases readStamp s <;> simp

theorem denote_iff : Denote stamps ts ↔ stamps.map readStamp = ts.map some := by
  simp only [Denote, validStamp_eq_ok]
  rw [← List.forall₂_eq_eq_eq, List.forall₂_map_left_iff, List.forall₂_map_right_iff]

theorem Denote.map_eq (h : Denote stamps ts) : stamps.map validStamp = ts.map .ok := by
  rw [← List.forall₂_eq_eq_eq, List.forall₂_map_left_iff, List.forall₂_map_right_iff]
  exact h

theorem Denote.mem_iff (h : Denote stamps ts) (t : Instant) :
    t ∈ ts ↔ .ok t ∈ stamps.map validStamp := by
  simp [h.map_eq]

theorem exists_denote : (∃ ts, Denote stamps ts) ↔ ∀ r ∈ stamps.map validStamp, ∃ t, r = .ok t := by
  rw [List.forall_mem_map]
  exact exists_forall₂

/-- **Windows are exact hulls.** Time stamps have no window exactly if one of them is no time, with
the fault of the first such one. Otherwise their window reaches from the least to the greatest of
the instants that they denote; it is empty if there are no stamps, and has both bounds if there are
any. Stamps with the same readings have the same window, whatever their order, their repetitions
and their notations; and the window of two lists, one after the other, is the hull of the bounds of
their windows. -/
theorem windowOf_is_hull (stamps stamps' : List String) :
    (∀ f, windowOf stamps = .error f ↔ ∃ (k : Nat) (s : String), stamps[k]? = some s ∧
      validStamp s = .error f ∧
      ∀ i < k, ∀ r, stamps[i]? = some r → ∃ t, validStamp r = .ok t) ∧
    (∀ w, windowOf stamps = .ok w ↔ ∃ ts, Denote stamps ts ∧ w.Spans ts) ∧
    (∀ w, windowOf stamps = .ok w → (w.isEmpty = true ↔ stamps = []) ∧
      (w.createdAt.isSome = true ↔ stamps ≠ []) ∧ (w.modifiedAt.isSome = true ↔ stamps ≠ [])) ∧
    (∀ w, windowOf stamps = .ok w →
      (∀ r, r ∈ stamps'.map validStamp ↔ r ∈ stamps.map validStamp) → windowOf stamps' = .ok w) ∧
    windowOf (stamps ++ stamps') = (do
      let v ← windowOf stamps
      let w ← windowOf stamps'
      .ok (hull (v.bounds ++ w.bounds))) := by
  refine ⟨fun f => ?_, fun w => windowOf_eq_ok_iff, fun w hw => ?_, fun w hw hsame => ?_, ?_⟩
  · rw [windowOf_eq, map_eq_error, mapM_eq_error]
  · obtain ⟨ts, hts, hspans⟩ := windowOf_eq_ok_iff.mp hw
    have hnil : ts = [] ↔ stamps = [] := by
      rw [← List.length_eq_zero_iff, ← hts.length_eq, List.length_eq_zero_iff]
    simpa only [ne_eq, hnil] using hspans.isEmpty_iff
  · obtain ⟨ts, hts, hspans⟩ := windowOf_eq_ok_iff.mp hw
    obtain ⟨ts', hts'⟩ : ∃ ts', Denote stamps' ts' :=
      exists_denote.mpr fun r hr => exists_denote.mp ⟨ts, hts⟩ r ((hsame r).mp hr)
    have hhull : hull ts = hull ts' :=
      hull_congr fun t => by rw [hts.mem_iff, hts'.mem_iff, hsame]
    exact windowOf_eq_ok_iff.mpr
      ⟨ts', hts', eq_hull_iff.mp ((eq_hull_iff.mpr hspans).trans hhull)⟩
  · rw [windowOf_eq, windowOf_eq, windowOf_eq, List.mapM_append]
    cases stamps.mapM validStamp with
    | error f => rfl
    | ok ts =>
        cases stamps'.mapM validStamp with
        | error f => rfl
        | ok ts' => exact congrArg Except.ok (hull_append ts ts')

/-- A leap second a little east of Greenwich, the second before it and the one after it. -/
def newYear : List String :=
  ["2017-01-01T00:59:60.25+01:00", " 1483228799.5", "2017-01-01T00:00:00Z"]

/-- The same instants, one of them twice. -/
def newYearAgain : List String :=
  ["1483228800", "2016-12-31t23:59:60.250Z", "2016-12-31T23:59:59.5Z", "1483228800.0"]

theorem windowOf_is_hull_newYear :
    ∃ low leap high : Instant, Denote newYear [leap, low, high] ∧
      Denote newYearAgain [high, leap, low, high] ∧
      windowOf newYear = .ok ⟨some low, some high⟩ ∧
      windowOf newYearAgain = .ok ⟨some low, some high⟩ ∧ newYear ≠ [] := by
  let low : Instant := ⟨1483228799, 500000000, by decide⟩
  let leap : Instant := ⟨1483228799, 1250000000, by decide⟩
  let high : Instant := ⟨1483228800, 0, by decide⟩
  have hdenote : Denote newYear [leap, low, high] := denote_iff.mpr (by decide +kernel)
  have hagain : Denote newYearAgain [high, leap, low, high] := denote_iff.mpr (by decide +kernel)
  have hwindow : windowOf newYear = .ok ⟨some low, some high⟩ :=
    windowOf_eq_ok_iff.mpr ⟨_, hdenote, eq_hull_iff.mp (by decide)⟩
  have hsame : ∀ r, r ∈ newYearAgain.map validStamp ↔ r ∈ newYear.map validStamp := by
    intro r
    rw [hdenote.map_eq, hagain.map_eq]
    exact ⟨fun h => List.map_subset _ (by decide) h, fun h => List.map_subset _ (by decide) h⟩
  have hexact := windowOf_is_hull newYear newYearAgain
  exact ⟨low, leap, high, hdenote, hagain, hwindow, hexact.2.2.2.1 _ hwindow hsame,
    (hexact.2.2.1 _ hwindow).2.1.mp rfl⟩

end Intake
