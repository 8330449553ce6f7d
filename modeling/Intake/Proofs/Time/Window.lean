import Intake.Fault

/-!
# Windows are in order

A window that is made of time stamps has both bounds or neither, and the first one is not
after the second one. The bounds are the least and the greatest of the stamps.
-/

namespace Intake.Time

namespace Instant

theorem le_refl (t : Instant) : t ≤ t := Or.inr ⟨rfl, Nat.le_refl _⟩

theorem le_trans {s t u : Instant} (hst : s ≤ t) (htu : t ≤ u) : s ≤ u := by
  rcases hst with hst | ⟨hst, hst'⟩
  · rcases htu with htu | ⟨htu, _⟩
    · exact Or.inl (Int.lt_trans hst htu)
    · exact Or.inl (htu ▸ hst)
  · rcases htu with htu | ⟨htu, htu'⟩
    · exact Or.inl (hst ▸ htu)
    · exact Or.inr ⟨hst.trans htu, Nat.le_trans hst' htu'⟩

theorem le_total (s t : Instant) : s ≤ t ∨ t ≤ s := by
  rcases Int.lt_trichotomy s.seconds t.seconds with h | h | h
  · exact Or.inl (Or.inl h)
  · rcases Nat.le_total s.nanos t.nanos with hn | hn
    · exact Or.inl (Or.inr ⟨h, hn⟩)
    · exact Or.inr (Or.inr ⟨h.symm, hn⟩)
  · exact Or.inr (Or.inl h)

theorem earlier_le (s t : Instant) : s.earlier t ≤ s := by
  rw [earlier]
  split
  · exact le_refl s
  · next h => exact (le_total s t).resolve_left h

theorem earlier_le_right (s t : Instant) : s.earlier t ≤ t := by
  rw [earlier]
  split
  · next h => exact h
  · exact le_refl t

theorem le_later_right (s t : Instant) : t ≤ s.later t := by
  rw [later]
  split
  · exact le_refl t
  · next h => exact (le_total s t).resolve_left h

theorem earlier_cases (s t : Instant) : s.earlier t = s ∨ s.earlier t = t := by
  rw [earlier]
  split
  · exact Or.inl rfl
  · exact Or.inr rfl

theorem later_cases (s t : Instant) : s.later t = s ∨ s.later t = t := by
  rw [later]
  split
  · exact Or.inr rfl
  · exact Or.inl rfl

theorem le_later (s t : Instant) : s ≤ s.later t := by
  rw [later]
  split
  · next h => exact h
  · exact le_refl s

end Instant

namespace Window

/-- Whether a window has both bounds, in their order, or neither. -/
inductive InOrder : Window → Prop where
  | empty : InOrder empty
  | bounded {low high : Instant} : low ≤ high → InOrder ⟨some low, some high⟩

theorem inOrder_add {w : Window} (h : w.InOrder) (t : Instant) : (w.add t).InOrder := by
  cases h with
  | empty => exact .bounded (Instant.le_refl t)
  | @bounded low high hle =>
      refine .bounded (Instant.le_trans (Instant.earlier_le low t) ?_)
      exact Instant.le_trans hle (Instant.le_later high t)

theorem inOrder_hull (ts : List Instant) : (hull ts).InOrder := by
  suffices h : ∀ w : Window, w.InOrder → (ts.foldl add w).InOrder from h empty .empty
  induction ts with
  | nil => exact fun _ h => h
  | cons t rest ih => exact fun w h => ih (w.add t) (inOrder_add h t)

theorem inOrder_ofStamps {stamps : List String} {w : Window} (h : ofStamps stamps = .ok w) :
    w.InOrder := by
  rw [ofStamps] at h
  cases hread : readStamps stamps with
  | error text =>
      rw [hread] at h
      cases h
  | ok ts =>
      rw [hread] at h
      cases h
      exact inOrder_hull ts

/-! ## Least and greatest instants -/

/-- Whether a window reaches from the least to the greatest of some instants, and is empty if there
are none. -/
def Spans (w : Window) (ts : List Instant) : Prop :=
  ts = [] ∧ w = empty ∨
    ∃ low ∈ ts, ∃ high ∈ ts, w = ⟨some low, some high⟩ ∧ ∀ t ∈ ts, low ≤ t ∧ t ≤ high

theorem Spans.add {w : Window} {ts : List Instant} (h : w.Spans ts) (t : Instant) :
    (w.add t).Spans (ts ++ [t]) := by
  right
  rcases h with ⟨rfl, rfl⟩ | ⟨low, hlow, high, hhigh, rfl, hbounds⟩
  · refine ⟨t, by simp, t, by simp, rfl, fun s hs => ?_⟩
    rw [List.mem_singleton.mp hs]
    exact ⟨Instant.le_refl t, Instant.le_refl t⟩
  · refine ⟨low.earlier t, ?_, high.later t, ?_, rfl, fun s hs => ?_⟩
    · rcases low.earlier_cases t with heq | heq <;> rw [heq]
      · exact List.mem_append_left _ hlow
      · simp
    · rcases high.later_cases t with heq | heq <;> rw [heq]
      · exact List.mem_append_left _ hhigh
      · simp
    · rcases List.mem_append.mp hs with hs | hs
      · obtain ⟨hfrom, hto⟩ := hbounds s hs
        exact ⟨Instant.le_trans (low.earlier_le t) hfrom, Instant.le_trans hto (high.le_later t)⟩
      · rw [List.mem_singleton.mp hs]
        exact ⟨low.earlier_le_right t, high.le_later_right t⟩

theorem spans_hull (ts : List Instant) : (hull ts).Spans ts := by
  -- the window that was reached spans what was gone through
  suffices h : ∀ (seen : List Instant) (w : Window), w.Spans seen →
      (ts.foldl Window.add w).Spans (seen ++ ts) from h [] empty (Or.inl ⟨rfl, rfl⟩)
  induction ts with
  | nil => exact fun seen w h => by rwa [List.append_nil]
  | cons t rest ih =>
      intro seen w h
      have hrest := ih (seen ++ [t]) (w.add t) (h.add t)
      rwa [List.append_assoc] at hrest

/-- Stamps that can all be read are read in their order. -/
theorem readStamps_eq_ok {stamps : List String} (h : ∀ s ∈ stamps, (readStamp s).isSome = true) :
    readStamps stamps = .ok (stamps.filterMap readStamp) := by
  induction stamps with
  | nil => rfl
  | cons s rest ih =>
      obtain ⟨t, ht⟩ := Option.isSome_iff_exists.mp (h s List.mem_cons_self)
      rw [readStamps, List.filterMap_cons, ht, ih fun s hs => h s (List.mem_cons_of_mem _ hs)]
      rfl

end Window

end Intake.Time

namespace Intake

/-- The window of stamps that can all be read. -/
theorem windowOf_eq_ok {stamps : List String}
    (h : ∀ s ∈ stamps, (Time.readStamp s).isSome = true) :
    windowOf stamps = .ok (.hull (stamps.filterMap Time.readStamp)) := by
  rw [windowOf, Time.Window.ofStamps, Time.Window.readStamps_eq_ok h]
  rfl

theorem inOrder_windowOf {stamps : List String} {w : Time.Window}
    (h : windowOf stamps = .ok w) : w.InOrder := by
  rw [windowOf] at h
  cases hread : Time.Window.ofStamps stamps with
  | error text =>
      rw [hread] at h
      cases h
  | ok window =>
      rw [hread] at h
      cases h
      exact Time.Window.inOrder_ofStamps hread

end Intake
