import Mathlib.Data.Fintype.Card
import Mathlib.Data.List.Nodup
import Mathlib.Data.List.Pairwise
import Mathlib.Data.Set.Finite.Basic
import Mathlib.Logic.Relation

/-!
# Levels below a root

In breadth-first order the root comes first, then all that is in it, then all that is in that, and
so on: level after level, where each level has, one after the other, what is in the members of the
level before it. What can be reached in several ways is in the order once for each way. There is a
last level exactly if finitely much is below the root, and none of it is below itself.
-/

namespace Intake.Drive

variable {α : Type} {below : α → List α} {start : List α} {root a b : α} {depth : Nat}

/-! ## Levels -/

/-- The members at a depth: those to begin with, and then what is in the members before. -/
def level (below : α → List α) (start : List α) : Nat → List α
  | 0 => start
  | depth + 1 => (level below start depth).flatMap below

/-- The levels down to a depth, one after the other. -/
def levels (below : α → List α) (start : List α) (depth : Nat) : List α :=
  (List.range depth).flatMap (level below start)

theorem level_succ (start : List α) (depth : Nat) :
    level below start (depth + 1) = level below (start.flatMap below) depth := by
  induction depth with
  | zero => rfl
  | succ depth ih => rw [level, ih, level]

theorem level_append (front back : List α) (depth : Nat) :
    level below (front ++ back) depth = level below front depth ++ level below back depth := by
  induction depth with
  | zero => rfl
  | succ depth ih => rw [level, ih, List.flatMap_append, level, level]

/-- After an empty level there are only empty ones. -/
theorem level_of_le {later : Nat} (h : level below start depth = []) (hle : depth ≤ later) :
    level below start later = [] := by
  induction hle with
  | refl => exact h
  | step _ ih => rw [level, ih, List.flatMap_nil]

theorem levels_succ (start : List α) (depth : Nat) :
    levels below start (depth + 1) = start ++ levels below (start.flatMap below) depth := by
  rw [levels, List.range_succ_eq_map, List.flatMap_cons, List.flatMap_map, levels]
  congr 1
  refine List.flatMap_congr fun d _ => ?_
  exact level_succ start d

theorem levels_of_le {later : Nat} (h : level below start depth = []) (hle : depth ≤ later) :
    levels below start later = levels below start depth := by
  induction hle with
  | refl => rfl
  | @step later hle ih =>
      rw [levels, List.range_succ, List.flatMap_append, List.flatMap_singleton,
        level_of_le h hle, List.append_nil]
      exact ih

/-- All but the first level are what is in the members of the levels before the last one. -/
theorem levels_eq_append (start : List α) (depth : Nat) :
    levels below start (depth + 1) = start ++ (levels below start depth).flatMap below := by
  induction depth generalizing start with
  | zero => simp [levels, level]
  | succ depth ih =>
      rw [levels_succ, ih, levels_succ start depth, List.flatMap_append]

/-! ## What is below a root -/

/-- Whether one gets from one thing to another by going down, in any number of steps. -/
def Reaches (below : α → List α) : α → α → Prop := Relation.ReflTransGen fun a b => b ∈ below a

/-- Whether nothing below a root is below itself. -/
def Acyclic (below : α → List α) (root : α) : Prop :=
  ∀ a, Reaches below root a → ¬Relation.TransGen (fun a b => b ∈ below a) a a

theorem reaches_of_mem_level (h : a ∈ level below [root] depth) : Reaches below root a := by
  induction depth generalizing a with
  | zero =>
      rw [List.mem_singleton.mp h]
      exact .refl
  | succ depth ih =>
      obtain ⟨b, hb, ha⟩ := List.mem_flatMap.mp h
      exact (ih hb).tail ha

theorem reaches_of_mem_levels (h : a ∈ levels below [root] depth) : Reaches below root a := by
  obtain ⟨d, _, ha⟩ := List.mem_flatMap.mp h
  exact reaches_of_mem_level ha

/-- What is below a member of a level is in a later one. -/
theorem exists_level_of_transGen (ha : a ∈ level below start depth)
    (h : Relation.TransGen (fun a b => b ∈ below a) a b) :
    ∃ later, depth < later ∧ b ∈ level below start later := by
  induction h with
  | single hb => exact ⟨depth + 1, Nat.lt_succ_self depth, List.mem_flatMap.mpr ⟨a, ha, hb⟩⟩
  | @tail middle b _ hb ih =>
      obtain ⟨later, hlater, hmiddle⟩ := ih
      exact ⟨later + 1, Nat.lt_succ_of_lt hlater, List.mem_flatMap.mpr ⟨middle, hmiddle, hb⟩⟩

theorem exists_level_of_reaches (h : Reaches below root a) :
    ∃ depth, a ∈ level below [root] depth := by
  rcases Relation.reflTransGen_iff_eq_or_transGen.mp h with rfl | h
  · exact ⟨0, List.mem_singleton_self a⟩
  · have hroot : root ∈ level below [root] 0 := List.mem_singleton_self root
    obtain ⟨depth, _, ha⟩ := exists_level_of_transGen hroot h
    exact ⟨depth, ha⟩

/-! ## Breadth-first order -/

/-- Whether a list has all levels below a root, from the root itself down to the last one. -/
def InLevels (below : α → List α) (root : α) (order : List α) : Prop :=
  ∃ depth, level below [root] depth = [] ∧ order = levels below [root] depth

namespace InLevels

variable {order : List α} (h : InLevels below root order)

include h

theorem unique {order' : List α} (h' : InLevels below root order') : order = order' := by
  obtain ⟨depth, hlast, rfl⟩ := h
  obtain ⟨depth', hlast', rfl⟩ := h'
  rw [← levels_of_le hlast (Nat.le_max_left depth depth'),
    levels_of_le hlast' (Nat.le_max_right depth depth')]

/-- All that is below the root is in the order, and nothing else. -/
theorem mem_iff : a ∈ order ↔ Reaches below root a := by
  obtain ⟨depth, hlast, rfl⟩ := h
  refine ⟨reaches_of_mem_levels, ?_⟩
  intro hreach
  obtain ⟨d, ha⟩ := exists_level_of_reaches hreach
  have hd : d < depth := by
    by_contra hle
    rw [level_of_le hlast (Nat.le_of_not_lt hle)] at ha
    cases ha
  exact List.mem_flatMap.mpr ⟨d, List.mem_range.mpr hd, ha⟩

/-- The root comes first, and then, member by member, what is in them. -/
theorem eq_cons : order = root :: order.flatMap below := by
  obtain ⟨depth, hlast, rfl⟩ := h
  have hnext : levels below [root] (depth + 1) =
      [root] ++ (levels below [root] depth).flatMap below := levels_eq_append [root] depth
  rw [levels_of_le hlast (Nat.le_succ depth)] at hnext
  exact hnext

theorem acyclic : Acyclic below root := by
  obtain ⟨depth, hlast, _⟩ := h
  intro a hreach hcycle
  -- round the cycle again and again, past the last level
  have hdeep : ∀ d, ∃ later, d ≤ later ∧ a ∈ level below [root] later := by
    intro d
    induction d with
    | zero =>
        obtain ⟨later, ha⟩ := exists_level_of_reaches hreach
        exact ⟨later, Nat.zero_le later, ha⟩
    | succ d ih =>
        obtain ⟨later, hle, ha⟩ := ih
        obtain ⟨later', hlater, ha'⟩ := exists_level_of_transGen ha hcycle
        exact ⟨later', Nat.lt_of_le_of_lt hle hlater, ha'⟩
  obtain ⟨later, hle, ha⟩ := hdeep depth
  rw [level_of_le hlast hle] at ha
  cases ha

theorem finite : {a | Reaches below root a}.Finite :=
  (List.finite_toSet order).subset fun _ ha => h.mem_iff.mpr ha

end InLevels

/-- If what is in each of some things has a last level, then so have they together. -/
theorem exists_level_eq_nil (h : ∀ a ∈ start, ∃ depth, level below [a] depth = []) :
    ∃ depth, level below start depth = [] := by
  induction start with
  | nil => exact ⟨0, rfl⟩
  | cons a rest ih =>
      obtain ⟨depth, ha⟩ := h a List.mem_cons_self
      obtain ⟨depth', hrest⟩ := ih fun b hb => h b (List.mem_cons_of_mem a hb)
      refine ⟨max depth depth', ?_⟩
      rw [← List.singleton_append, level_append, level_of_le ha (Nat.le_max_left _ _),
        level_of_le hrest (Nat.le_max_right _ _)]
      rfl

/-- Where finitely much is below a root and none of it below itself, there is a last level. -/
theorem exists_inLevels (hfinite : {a | Reaches below root a}.Finite)
    (hacyclic : Acyclic below root) : ∃ order, InLevels below root order := by
  have : Finite {a | Reaches below root a} := hfinite.to_subtype
  let deeper : {a | Reaches below root a} → {a | Reaches below root a} → Prop :=
    fun x y => Relation.TransGen (fun a b => b ∈ below a) y.1 x.1
  have : IsTrans _ deeper := ⟨fun _ _ _ hxy hyz => hyz.trans hxy⟩
  have : Std.Irrefl deeper := ⟨fun x => hacyclic x.1 x.2⟩
  have hwell : WellFounded deeper := Finite.wellFounded_of_trans_of_irrefl deeper
  have hlast : ∀ x : {a | Reaches below root a}, ∃ depth, level below [x.1] depth = [] := by
    intro x
    induction x using hwell.induction with
    | h x ih =>
        have hin : ∀ b ∈ below x.1, ∃ depth, level below [b] depth = [] :=
          fun b hb => ih ⟨b, x.2.tail hb⟩ (.single hb)
        obtain ⟨depth, hnone⟩ := exists_level_eq_nil hin
        refine ⟨depth + 1, ?_⟩
        rw [level_succ, List.flatMap_singleton, hnone]
  obtain ⟨depth, hnone⟩ := hlast ⟨root, .refl⟩
  exact ⟨_, depth, hnone, rfl⟩

/-! ## Trees -/

/-- Whether everything below a root is in one place only. -/
structure Treelike (below : α → List α) (root : α) : Prop where
  nodup : ∀ a, Reaches below root a → (below a).Nodup
  parent : ∀ a b c, Reaches below root a → Reaches below root b → c ∈ below a → c ∈ below b → a = b

theorem nodup_levels (htree : Treelike below root) (hacyclic : Acyclic below root) (depth : Nat) :
    (levels below [root] depth).Nodup := by
  induction depth with
  | zero => exact List.nodup_nil
  | succ depth ih =>
      rw [levels_eq_append, List.singleton_append, List.nodup_cons, List.nodup_flatMap]
      refine ⟨?_, fun a ha => htree.nodup a (reaches_of_mem_levels ha), ?_⟩
      · intro hmem
        obtain ⟨a, ha, hroot⟩ := List.mem_flatMap.mp hmem
        exact hacyclic root .refl (Relation.TransGen.tail' (reaches_of_mem_levels ha) hroot)
      · refine ih.imp_of_mem fun ha hb hne => ?_
        intro c hc hc'
        exact hne (htree.parent _ _ c (reaches_of_mem_levels ha) (reaches_of_mem_levels hb) hc hc')

/-- Nothing is in the order twice exactly if everything is in one place only. -/
theorem InLevels.nodup_iff {order : List α} (h : InLevels below root order) :
    order.Nodup ↔ Treelike below root := by
  constructor
  · intro hnodup
    rw [h.eq_cons, List.nodup_cons, List.nodup_flatMap] at hnodup
    obtain ⟨_, hnodup, hapart⟩ := hnodup
    refine ⟨fun a ha => hnodup a (h.mem_iff.mpr ha), ?_⟩
    intro a b c ha hb hca hcb
    by_contra hne
    have : Std.Symm (Function.onFun List.Disjoint below) := ⟨fun _ _ => List.Disjoint.symm⟩
    exact hapart.forall (h.mem_iff.mpr ha) (h.mem_iff.mpr hb) hne hca hcb
  · intro htree
    have hacyclic := h.acyclic
    obtain ⟨depth, _, rfl⟩ := h
    exact nodup_levels htree hacyclic depth

end Intake.Drive
