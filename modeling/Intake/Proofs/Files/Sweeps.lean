import Intake.Proofs.Files.Pruning
import Mathlib.Data.Set.Card

/-!
# Pruning, one directory at a time

On a walk that comes to each directory after everything in it, a directory is removed if it
is empty when its turn comes. On the way the directories below it have gone or stayed, so in
the end exactly those are gone that hold no file at any depth, whatever the order of the walk
is otherwise; and this is what pruning does at once.
-/

namespace Intake.Files

namespace Node

/-- Whether there is a directory at a location that holds no file at any depth. -/
def Hollow (n : Node) (loc : Location) : Prop :=
  n.sight? loc = some .directory ∧ ¬n.HoldsFile loc

theorem hollow_child {es : List (String × Node)} {name : String} {child : Node}
    {loc : Location} (hchild : es.lookup name = some child) :
    (dir es).Hollow (name :: loc) ↔ child.Hollow loc := by
  rw [Hollow, Hollow, sight?_dir_cons, hchild, Option.bind_some, holdsFile_child hchild]

/-- Another entry makes no difference below the entries that there are. -/
theorem hollow_skip {name key : String} {n : Node} {rest : List (String × Node)}
    {loc : Location} (hne : key ≠ name) :
    (dir ((name, n) :: rest)).Hollow (key :: loc) ↔ (dir rest).Hollow (key :: loc) := by
  simp only [Hollow, HoldsFile, List.cons_append, sight?_dir_cons, lookup_entry_cons, if_neg hne]

/-- The names of the entries that are found differ from a name that no entry has. -/
theorem ne_of_lookup {key name : String} {n : Node} {es : List (String × Node)}
    (hkey : key ∉ es.map (·.1)) (h : es.lookup name = some n) : name ≠ key := by
  rintro rfl
  exact hkey (List.mem_map.mpr ⟨_, mem_of_lookup h, rfl⟩)

/-! ## Walks -/

mutual

/-- The locations of all that is in a tree, each after everything below it. -/
def upwards : Node → List Location
  | .file _ => [[]]
  | .dir es => upwardsIn es ++ [[]]
termination_by structural n => n

def upwardsIn : List (String × Node) → List Location
  | [] => []
  | (name, n) :: rest => n.upwards.map (name :: ·) ++ upwardsIn rest

end

theorem isSome_sight?_cons {es : List (String × Node)} {name : String} {rest : Location} :
    ((dir es).sight? (name :: rest)).isSome = true ↔
      ∃ child, es.lookup name = some child ∧ (child.sight? rest).isSome = true := by
  rw [sight?_dir_cons]
  cases es.lookup name with
  | none => simp
  | some child => simp

mutual

theorem mem_upwards :
    ∀ {n : Node}, n.Distinct → ∀ {loc : Location},
      loc ∈ n.upwards ↔ (n.sight? loc).isSome = true
  | .file content, _, loc => by
    cases loc with
    | nil => simp [upwards, sight?_nil]
    | cons name rest => simp [upwards, sight?_file_cons]
  | .dir es, h, loc => by
    obtain ⟨hnames, hes⟩ := distinct_dir_iff.mp h
    rw [upwards, List.mem_append, mem_upwardsIn hnames hes, List.mem_singleton]
    cases loc with
    | nil => simp [sight?_nil]
    | cons name rest => simp [isSome_sight?_cons]
termination_by structural n => n

theorem mem_upwardsIn :
    ∀ {es : List (String × Node)}, (es.map (·.1)).Nodup → (∀ e ∈ es, e.2.Distinct) →
      ∀ {loc : Location}, loc ∈ upwardsIn es ↔ ∃ name rest child, loc = name :: rest ∧
        es.lookup name = some child ∧ (child.sight? rest).isSome = true
  | [], _, _, loc => by simp [upwardsIn]
  | (key, n) :: others, hnames, hes, loc => by
    obtain ⟨hkey, hnames⟩ := List.nodup_cons.mp hnames
    have hn := hes _ List.mem_cons_self
    rw [upwardsIn, List.mem_append, List.mem_map,
      mem_upwardsIn hnames fun e he => hes e (List.mem_cons_of_mem _ he)]
    constructor
    · rintro (⟨rest, hrest, rfl⟩ | ⟨name, rest, child, rfl, hchild, hsome⟩)
      · have hfirst : ((key, n) :: others).lookup key = some n := by
          rw [lookup_entry_cons, if_pos rfl]
        exact ⟨key, rest, n, rfl, hfirst, (mem_upwards hn).mp hrest⟩
      · refine ⟨name, rest, child, rfl, ?_, hsome⟩
        rw [lookup_entry_cons, if_neg (ne_of_lookup hkey hchild), hchild]
    · rintro ⟨name, rest, child, rfl, hchild, hsome⟩
      rw [lookup_entry_cons] at hchild
      split at hchild
      · next heq =>
          obtain rfl := Option.some.inj hchild
          exact Or.inl ⟨rest, (mem_upwards hn).mpr hsome, by rw [heq]⟩
      · exact Or.inr ⟨name, rest, child, rfl, hchild, hsome⟩

end

mutual

theorem pairwise_upwards :
    ∀ {n : Node}, n.Distinct → n.upwards.Pairwise fun loc later => ¬loc <+: later
  | .file content, _ => List.pairwise_singleton _ _
  | .dir es, h => by
    obtain ⟨hnames, hes⟩ := distinct_dir_iff.mp h
    rw [upwards, List.pairwise_append]
    refine ⟨pairwise_upwardsIn hnames hes, List.pairwise_singleton _ _, ?_⟩
    intro loc hloc root hroot
    obtain ⟨name, rest, child, rfl, _⟩ := (mem_upwardsIn hnames hes).mp hloc
    rw [List.mem_singleton.mp hroot]
    simp
termination_by structural n => n

theorem pairwise_upwardsIn :
    ∀ {es : List (String × Node)}, (es.map (·.1)).Nodup → (∀ e ∈ es, e.2.Distinct) →
      (upwardsIn es).Pairwise fun loc later => ¬loc <+: later
  | [], _, _ => List.Pairwise.nil
  | (key, n) :: others, hnames, hes => by
    obtain ⟨hkey, hnames⟩ := List.nodup_cons.mp hnames
    have hothers : ∀ e ∈ others, e.2.Distinct := fun e he => hes e (List.mem_cons_of_mem _ he)
    rw [upwardsIn, List.pairwise_append, List.pairwise_map]
    refine ⟨?_, pairwise_upwardsIn hnames hothers, ?_⟩
    · refine (pairwise_upwards (hes _ List.mem_cons_self)).imp ?_
      intro loc later hnot hpre
      exact hnot (List.cons_prefix_cons.mp hpre).2
    · intro loc hloc later hlater hpre
      obtain ⟨rest, _, rfl⟩ := List.mem_map.mp hloc
      obtain ⟨name, _, child, rfl, hchild, _⟩ := (mem_upwardsIn hnames hothers).mp hlater
      exact ne_of_lookup hkey hchild (List.cons_prefix_cons.mp hpre).1.symm

end

open Classical in
mutual

/-- Pruning counts the directories without a file. -/
theorem count_prune :
    ∀ {n : Node}, n.Distinct → n.prune.2 = n.upwards.countP fun loc => n.Hollow loc
  | .file content, _ => by simp [prune, upwards, Hollow, sight?_nil, sight]
  | .dir es, h => by
    obtain ⟨hnames, hes⟩ := distinct_dir_iff.mp h
    -- the directory itself is counted if nothing is left of it
    have hroot : (dir es).Hollow [] ↔ (dir es).prune.1 = none := by
      rw [Hollow, ← isSome_prune h, Bool.not_eq_true, Option.isSome_eq_false_iff,
        Option.isNone_iff_eq_none]
      exact and_iff_right rfl
    rw [upwards, List.countP_append, ← count_pruneEntries hnames hes, List.countP_singleton]
    simp only [decide_eq_true_eq, hroot, prune]
    split <;> simp
termination_by structural n => n

theorem count_pruneEntries :
    ∀ {es : List (String × Node)}, (es.map (·.1)).Nodup → (∀ e ∈ es, e.2.Distinct) →
      (pruneEntries es).2 = (upwardsIn es).countP fun loc => (dir es).Hollow loc
  | [], _, _ => rfl
  | (key, n) :: others, hnames, hes => by
    obtain ⟨hkey, hnames⟩ := List.nodup_cons.mp hnames
    have hothers : ∀ e ∈ others, e.2.Distinct := fun e he => hes e (List.mem_cons_of_mem _ he)
    have hfirst : (n.upwards.map (key :: ·)).countP
        (fun loc => (dir ((key, n) :: others)).Hollow loc) = n.prune.2 := by
      rw [count_prune (hes _ List.mem_cons_self), List.countP_map]
      refine List.countP_congr fun loc _ => ?_
      simp only [Function.comp_apply, decide_eq_true_eq]
      exact hollow_child (by rw [lookup_entry_cons, if_pos rfl])
    have hrest : (upwardsIn others).countP
        (fun loc => (dir ((key, n) :: others)).Hollow loc) = (pruneEntries others).2 := by
      rw [count_pruneEntries hnames hothers]
      refine List.countP_congr fun loc hloc => ?_
      obtain ⟨name, rest, child, rfl, hchild, _⟩ := (mem_upwardsIn hnames hothers).mp hloc
      simp only [decide_eq_true_eq]
      exact hollow_skip (ne_of_lookup hkey hchild)
    rw [upwardsIn, List.countP_append, hfirst, hrest]
    simp only [pruneEntries]
    split <;> rfl

end

/-! ## Nothing to prune -/

mutual

/-- A tree of which nothing is counted stays as it is. -/
theorem prune_eq_self : ∀ {n : Node}, n.prune.2 = 0 → n.prune = (some n, 0)
  | .file content, _ => rfl
  | .dir es, h => by
    simp only [prune] at h ⊢
    split at h
    · cases h
    · next hne =>
        rw [if_neg hne]
        rw [pruneEntries_eq_self h]
termination_by structural n => n

theorem pruneEntries_eq_self :
    ∀ {es : List (String × Node)}, (pruneEntries es).2 = 0 → pruneEntries es = (es, 0)
  | [], _ => rfl
  | (name, n) :: rest, h => by
    have hsum : n.prune.2 + (pruneEntries rest).2 = 0 := by
      rw [← h]
      simp only [pruneEntries]
      split <;> rfl
    rw [pruneEntries, prune_eq_self (Nat.eq_zero_of_add_eq_zero_right hsum),
      pruneEntries_eq_self (Nat.eq_zero_of_add_eq_zero_left hsum)]

end

theorem setEntry_of_lookup {name : String} {child : Node} {es : List (String × Node)}
    (h : es.lookup name = some child) : setEntry name child es = es := by
  induction es with
  | nil => cases h
  | cons e rest ih =>
      obtain ⟨first, old⟩ := e
      rw [lookup_entry_cons] at h
      rw [setEntry]
      by_cases hname : name = first
      · rw [if_pos hname] at h
        rw [if_pos hname.symm, Option.some.inj h, hname]
      · rw [if_neg hname] at h
        rw [if_neg (Ne.symm hname), ih h]

/-- Putting what is there in its place changes nothing. -/
theorem put_of_get? {x : Node} :
    ∀ {loc : Location} {n : Node}, n.get? loc = some x → put x loc n = n
  | [], n, h => by
    cases h
    rfl
  | name :: rest, .file content, h => by cases h
  | name :: rest, .dir es, h => by
    obtain ⟨child, hchild, hx⟩ := Option.bind_eq_some_iff.mp h
    change es.lookup name = some child at hchild
    rw [put, hchild, Option.getD_some, put_of_get? hx, setEntry_of_lookup hchild]

end Node

namespace FileSystem

/-- Whether there is a directory at a place that holds no file at any depth. -/
def Hollow (fs : FileSystem) (place : Location) : Prop :=
  fs.sight? place = some .directory ∧ ¬fs.HoldsFile place

/-! ## Sweeping -/

/-- Removes a directory if it is empty, and counts it. -/
def visit (fs : FileSystem) (place : Location) : Nat × FileSystem :=
  match fs.get? place with
  | some (.dir []) => (1, fs.remove place)
  | _ => (0, fs)

/-- Visits some places one after the other. -/
def sweep : List Location → FileSystem → Nat × FileSystem
  | [], fs => (0, fs)
  | place :: rest, fs =>
    let (count, fs) := fs.visit place
    let (more, fs) := sweep rest fs
    (count + more, fs)

open Classical in
theorem count_visit (fs : FileSystem) (place : Location) :
    (fs.visit place).1 = if fs.get? place = some (.dir []) then 1 else 0 := by
  rw [visit]
  split
  · next h => rw [if_pos h]
  · next h => rw [if_neg h]

open Classical in
/-- A visit takes away at most the place that is visited, since nothing is in an empty directory. -/
theorem sight?_visit (fs : FileSystem) {place : Location} (hroot : place ≠ [])
    (other : Location) :
    (fs.visit place).2.sight? other =
      if fs.get? place = some (.dir []) ∧ other = place then none else fs.sight? other := by
  rw [visit]
  split
  · next hdir =>
      obtain ⟨front, name, rfl⟩ : ∃ front name, place = front ++ [name] :=
        ⟨_, _, (List.dropLast_concat_getLast hroot).symm⟩
      simp only [sight?_remove, hdir, true_and]
      by_cases hother : front ++ [name] <+: other
      · obtain ⟨rest, rfl⟩ := hother
        rw [if_pos (List.prefix_append _ _)]
        cases rest with
        | nil => rw [if_pos (List.append_nil _)]
        | cons next rest =>
            rw [sight?_append hdir, Node.sight?_dir_cons]
            exact (ite_self none).symm
      · rw [if_neg hother, if_neg]
        rintro rfl
        exact hother List.prefix_rfl
  · next hdir => rw [if_neg fun h => hdir h.1]

/-- Whether a walk comes to all that is at and below a location, to each place before those that
it is in. -/
structure ContentsFirst (fs : FileSystem) (loc : Location) (walk : List Location) : Prop where
  complete : ∀ place, place ∈ walk ↔ loc <+: place ∧ (fs.sight? place).isSome = true
  order : walk.Pairwise fun place later => ¬place <+: later

theorem isEmptyDir_iff {fs : FileSystem} {place : Location} :
    fs.get? place = some (.dir []) ↔
      fs.sight? place = some .directory ∧ ∀ name, fs.sight? (place ++ [name]) = none := by
  constructor
  · intro h
    refine ⟨get?_eq_dir.mpr ⟨[], h⟩, fun name => ?_⟩
    rw [sight?_append h, Node.sight?_dir_cons]
    rfl
  · rintro ⟨hdir, hnone⟩
    obtain ⟨es, hes⟩ := get?_eq_dir.mp hdir
    cases es with
    | nil => exact hes
    | cons e rest =>
        have hfirst := hnone e.1
        rw [sight?_append hes, Node.sight?_dir_cons, Node.lookup_entry_cons, if_pos rfl] at hfirst
        cases hfirst

/-! ## What holds a file -/

theorem isSome_of_holdsFile {fs : FileSystem} {place : Location} (h : fs.HoldsFile place) :
    (fs.sight? place).isSome = true := by
  obtain ⟨rest, content, hfile⟩ := holdsFile_iff.mp h
  cases rest with
  | nil =>
      rw [List.append_nil] at hfile
      rw [hfile]
      rfl
  | cons name rest =>
      rw [sight?_above (Option.isSome_of_eq_some hfile)]
      rfl

/-- A directory holds a file if one of its entries does. -/
theorem holdsFile_of_dir_iff {fs : FileSystem} {place : Location}
    (hdir : fs.sight? place = some .directory) :
    fs.HoldsFile place ↔ ∃ name, fs.HoldsFile (place ++ [name]) := by
  simp only [holdsFile_iff, List.append_assoc]
  constructor
  · rintro ⟨rest, content, hfile⟩
    cases rest with
    | nil =>
        rw [List.append_nil, hdir] at hfile
        cases hfile
    | cons name rest => exact ⟨name, rest, content, hfile⟩
  · rintro ⟨name, rest, content, hfile⟩
    exact ⟨name :: rest, content, hfile⟩

/-- What is there and holds no file is a directory. -/
theorem hollow_of_not_holdsFile {fs : FileSystem} {place : Location}
    (hthere : (fs.sight? place).isSome = true) (h : ¬fs.HoldsFile place) : fs.Hollow place := by
  refine ⟨?_, h⟩
  obtain ⟨sight, hsight⟩ := Option.isSome_iff_exists.mp hthere
  cases sight with
  | directory => exact hsight
  | file content => exact absurd (holdsFile_of_content? (content?_eq_some.mpr hsight)) h

/-! ## The state of a sweep -/

open Classical in
/-- Whether of what was there at first just the directories are gone that were visited and hold
no file. -/
def Swept (fs : FileSystem) (visited : List Location) (now : FileSystem) : Prop :=
  ∀ place, now.sight? place =
    if place ∈ visited ∧ fs.Hollow place then none else fs.sight? place

theorem swept_nil (fs : FileSystem) : fs.Swept [] fs :=
  fun _ => (if_neg fun h => absurd h.1 List.not_mem_nil).symm

/-- After what is in it was visited, a directory is empty if there was no file in it at first. -/
theorem Swept.isEmptyDir_iff {fs now : FileSystem} {visited : List Location} {place : Location}
    (h : fs.Swept visited now) (hnew : place ∉ visited)
    (hbelow : ∀ name, (fs.sight? (place ++ [name])).isSome = true →
      place ++ [name] ∈ visited) :
    now.get? place = some (.dir []) ↔ fs.Hollow place := by
  rw [FileSystem.isEmptyDir_iff, h place, if_neg fun hboth => hnew hboth.1, Hollow,
    and_congr_right_iff]
  intro hdir
  rw [holdsFile_of_dir_iff hdir, not_exists]
  refine forall_congr' fun name => ?_
  rw [h (place ++ [name])]
  constructor
  · intro hnone hholds
    rw [if_neg fun hboth => hboth.2.2 hholds] at hnone
    have hthere := isSome_of_holdsFile hholds
    rw [hnone] at hthere
    cases hthere
  · intro hholds
    by_cases hthere : (fs.sight? (place ++ [name])).isSome = true
    · exact if_pos ⟨hbelow name hthere, hollow_of_not_holdsFile hthere hholds⟩
    · rw [Bool.not_eq_true, Option.isSome_eq_false_iff, Option.isNone_iff_eq_none] at hthere
      rw [hthere, ite_self]

open Classical in
/-- **A visit.** After what is in a place was visited, a visit takes it away if it is a directory
that holds no file, and changes nothing else. -/
theorem Swept.visit {fs now : FileSystem} {visited : List Location} {place : Location}
    (h : fs.Swept visited now) (hroot : place ≠ []) (hnew : place ∉ visited)
    (hbelow : ∀ name, (fs.sight? (place ++ [name])).isSome = true →
      place ++ [name] ∈ visited) :
    (now.visit place).1 = (if fs.Hollow place then 1 else 0) ∧
      fs.Swept (place :: visited) (now.visit place).2 := by
  have hempty := h.isEmptyDir_iff hnew hbelow
  refine ⟨by simp only [count_visit, hempty], fun other => ?_⟩
  simp only [sight?_visit now hroot, hempty, h other, List.mem_cons]
  by_cases heq : other = place
  · subst heq
    by_cases hhollow : fs.Hollow other
    · rw [if_pos ⟨hhollow, rfl⟩, if_pos ⟨Or.inl rfl, hhollow⟩]
    · rw [if_neg fun hboth => hhollow hboth.1, if_neg fun hboth => hhollow hboth.2,
        if_neg fun hboth => hhollow hboth.2]
  · rw [if_neg fun hboth => heq hboth.2]
    simp only [heq, false_or]

open Classical in
/-- **A sweep.** From a state in which some places were visited, the rest of a walk takes away the
directories on it that hold no file, and counts them. -/
theorem Swept.sweep {fs : FileSystem} {loc : Location} {rest : List Location} (hloc : loc ≠ []) :
    ∀ {visited : List Location} {now : FileSystem}, fs.Swept visited now →
      fs.ContentsFirst loc (visited.reverse ++ rest) →
      (FileSystem.sweep rest now).1 = rest.countP (fun place => fs.Hollow place) ∧
        fs.Swept (visited.reverse ++ rest) (FileSystem.sweep rest now).2 := by
  -- along what is left of the walk, for all that was visited before
  induction rest with
  | nil =>
      intro visited now h _
      refine ⟨rfl, fun place => ?_⟩
      rw [FileSystem.sweep, h place]
      simp
  | cons place rest ih =>
      intro visited now h hwalk
      obtain ⟨_, hrest, hapart⟩ := List.pairwise_append.mp hwalk.order
      have hmem : place ∈ visited.reverse ++ place :: rest := by simp
      have hin := (hwalk.complete place).mp hmem
      have hroot : place ≠ [] := by
        rintro rfl
        exact hloc (List.prefix_nil.mp hin.1)
      have hnew : place ∉ visited := fun hvisited =>
        hapart place (List.mem_reverse.mpr hvisited) place List.mem_cons_self List.prefix_rfl
      -- an entry of this place is on the walk too, but not behind it
      have hbelow : ∀ name, (fs.sight? (place ++ [name])).isSome = true →
          place ++ [name] ∈ visited := by
        intro name hsome
        have hchild := (hwalk.complete (place ++ [name])).mpr
          ⟨hin.1.trans (List.prefix_append _ _), hsome⟩
        rw [List.mem_append, List.mem_reverse, List.mem_cons] at hchild
        rcases hchild with hvisited | heq | hlater
        · exact hvisited
        · simp at heq
        · exact absurd (List.prefix_append _ _) ((List.pairwise_cons.mp hrest).1 _ hlater)
      obtain ⟨hcount, hswept⟩ := h.visit hroot hnew hbelow
      have hsplit : visited.reverse ++ place :: rest = (place :: visited).reverse ++ rest := by
        simp
      rw [hsplit] at hwalk ⊢
      obtain ⟨hcounts, hend⟩ := ih hswept hwalk
      refine ⟨?_, hend⟩
      change (now.visit place).1 + (FileSystem.sweep rest (now.visit place).2).1 = _
      rw [hcounts, hcount, List.countP_cons, Nat.add_comm]
      simp only [decide_eq_true_eq]

/-! ## What is counted -/

open Classical in
theorem ContentsFirst.countP_hollow {fs : FileSystem} {loc : Location} {walk : List Location}
    (h : fs.ContentsFirst loc walk) :
    walk.countP (fun place => fs.Hollow place) =
      {place | loc <+: place ∧ fs.Hollow place}.ncard := by
  have hnodup : walk.Nodup := by
    refine h.order.imp ?_
    rintro place _ hnot rfl
    exact hnot List.prefix_rfl
  have hset : {place | loc <+: place ∧ fs.Hollow place} =
      ((walk.filter fun place => fs.Hollow place).toFinset : Set Location) := by
    ext place
    rw [List.coe_toFinset, Set.mem_ofPred_eq, Set.mem_ofPred_eq, List.mem_filter, h.complete,
      decide_eq_true_eq]
    constructor
    · exact fun hplace => ⟨⟨hplace.1, by rw [hplace.2.1]; rfl⟩, hplace.2⟩
    · exact fun hplace => ⟨hplace.1.1, hplace.2⟩
  rw [hset, Set.ncard_coe_finset, List.toFinset_card_of_nodup (hnodup.filter _),
    List.countP_eq_length_filter]

/-- The locations of a tree, each after everything below it, are such a walk. -/
theorem contentsFirst_upwards {fs : FileSystem} {loc : Location} {n : Node}
    (h : fs.get? loc = some n) : fs.ContentsFirst loc (n.upwards.map (loc ++ ·)) where
  complete place := by
    rw [List.mem_map]
    constructor
    · rintro ⟨rest, hrest, rfl⟩
      rw [sight?_append h]
      exact ⟨List.prefix_append _ _,
        (Node.mem_upwards (Node.distinct_of_get? fs.distinct h)).mp hrest⟩
    · rintro ⟨⟨rest, rfl⟩, hsome⟩
      rw [sight?_append h] at hsome
      exact ⟨rest, (Node.mem_upwards (Node.distinct_of_get? fs.distinct h)).mpr hsome, rfl⟩
  order := by
    rw [List.pairwise_map]
    refine (Node.pairwise_upwards (Node.distinct_of_get? fs.distinct h)).imp ?_
    exact fun hnot hpre => hnot ((List.prefix_append_right_inj loc).mp hpre)

theorem count_prune {fs : FileSystem} {loc : Location} {n : Node} (h : fs.get? loc = some n) :
    n.prune.2 = {place | loc <+: place ∧ fs.Hollow place}.ncard := by
  classical
  rw [← (contentsFirst_upwards h).countP_hollow, List.countP_map,
    Node.count_prune (Node.distinct_of_get? fs.distinct h)]
  refine List.countP_congr fun rest _ => ?_
  rw [Function.comp_apply, decide_eq_true_iff, decide_eq_true_iff, Hollow, Node.Hollow,
    sight?_append h, holdsFile_append h]

/-! ## Pruning is a sweep -/

/-- What pruning the directory at a location leaves behind. -/
structure Pruned (fs : FileSystem) (p : Path) (loc : Location) (count : Nat)
    (after : FileSystem) : Prop where
  /-- Every file is there as it was, and none is new. -/
  files : ∀ place, after.content? place = fs.content? place
  /-- At the location and below it, just the directories stay that hold a file at some depth, and
  the one at the location itself where its path is none by which a directory can be removed. -/
  directories : ∀ place, loc <+: place → (after.sight? place = some .directory ↔
    fs.sight? place = some .directory ∧ (fs.HoldsFile place ∨ Spared p loc place))
  /-- Elsewhere nothing changes. -/
  elsewhere : ∀ place, ¬loc <+: place → after.sight? place = fs.sight? place
  /-- The directories that are gone are counted. -/
  counted : count = {place | fs.sight? place = some .directory ∧ after.sight? place = none}.ncard
  /-- A second time nothing is left to do. -/
  again : after.pruneAt p = (0, after)
  /-- The same is left, and the same counted, when the places are visited one after the other and
  each directory is removed that is empty when its turn comes, in any order in which everything
  comes after what is in it. -/
  sweep : removable p = true → ∀ walk, fs.ContentsFirst loc walk →
    (FileSystem.sweep walk fs).1 = count ∧ (FileSystem.sweep walk fs).2.sight? = after.sight?

section

variable {fs : FileSystem} {p : Path} {loc : Location} {es : List (String × Node)}

theorem ext {fs fs' : FileSystem} (hroot : fs.root = fs'.root) (hcwd : fs.cwd = fs'.cwd) :
    fs = fs' := by
  cases fs
  cases fs'
  cases hroot
  cases hcwd
  rfl

theorem put_of_get? {x : Node} [x.Distinct] (h : fs.get? loc = some x) : fs.put loc x = fs :=
  ext (Node.put_of_get? h) rfl

/-- An empty directory that cannot be removed stays as it is. -/
theorem pruneAt_of_empty (hlocate : fs.locate p = .ok loc)
    (hempty : fs.get? loc = some (.dir [])) (hremovable : removable p = false) :
    fs.pruneAt p = (0, fs) := by
  rcases pruneAt_eq hlocate hempty with ⟨n, _, hkept, _⟩ | ⟨_, hcount, hafter⟩
  · cases hkept
  · rw [hremovable] at hcount hafter
    exact Prod.ext hcount (hafter.trans (put_of_get? hempty))

/-- A directory of which nothing is counted stays as it is. -/
theorem pruneAt_of_count (hlocate : fs.locate p = .ok loc) (hes : fs.get? loc = some (.dir es))
    (hzero : (Node.dir es).prune.2 = 0) : fs.pruneAt p = (0, fs) := by
  have hself := Node.prune_eq_self hzero
  rcases pruneAt_eq hlocate hes with ⟨n, hn, hprune, hcount, hafter⟩ | ⟨hprune, _⟩
  · obtain rfl := Option.some.inj ((congrArg (·.1) hself).symm.trans hprune)
    exact Prod.ext (hcount.trans hzero) (hafter.trans (put_of_get? hes))
  · cases (congrArg (·.1) hself).symm.trans hprune

/-- After pruning, a hollow directory at or below the location is the location itself. -/
theorem spared_of_hollow {place : Location} (hlocate : fs.locate p = .ok loc)
    (hdir : fs.sight? loc = some .directory) (hbelow : loc <+: place)
    (h : (fs.pruneAt p).2.Hollow place) : Spared p loc place :=
  (holdsFile_of_dir hlocate hdir hbelow h.1).resolve_left h.2

/-- **Pruning again changes nothing.** -/
theorem pruneAt_again (hlocate : fs.locate p = .ok loc) (hdir : fs.sight? loc = some .directory) :
    (fs.pruneAt p).2.pruneAt p = (0, (fs.pruneAt p).2) := by
  by_cases hafter : (fs.pruneAt p).2.isDir p = true
  · obtain ⟨loc', hlocate', hdir'⟩ := isDir_iff.mp hafter
    obtain rfl : loc' = loc := by
      rw [location_of_locate hlocate', location_of_locate hlocate, cwd_pruneAt]
    have hspared : ∀ place, loc' <+: place → (fs.pruneAt p).2.Hollow place →
        Spared p loc' place := fun _ => spared_of_hollow hlocate hdir
    by_cases hhollow : (fs.pruneAt p).2.Hollow loc'
    · -- the directory itself was spared, and nothing is left in it
      refine pruneAt_of_empty hlocate' (isEmptyDir_iff.mpr ⟨hdir', fun name => ?_⟩)
        (hspared _ List.prefix_rfl hhollow).2
      by_contra hsome
      have hnone : ¬(fs.pruneAt p).2.HoldsFile (loc' ++ [name]) :=
        fun hholds => hhollow.2 ((holdsFile_of_dir_iff hdir').mpr ⟨name, hholds⟩)
      have hsame := hspared _ (List.prefix_append _ _)
        (hollow_of_not_holdsFile (Option.isSome_iff_ne_none.mpr hsome) hnone)
      simp [Spared] at hsame
    · obtain ⟨es, hes⟩ := get?_eq_dir.mp hdir'
      refine pruneAt_of_count hlocate' hes ?_
      have hnone : {place | loc' <+: place ∧ (fs.pruneAt p).2.Hollow place} = ∅ := by
        refine Set.eq_empty_of_forall_notMem fun place hplace => hhollow ?_
        exact (hspared place hplace.1 hplace.2).1 ▸ hplace.2
      rw [count_prune hes, hnone, Set.ncard_empty]
  · exact pruneAt_eq_self (Bool.not_eq_true _ ▸ hafter)

/-- The directories that are gone after pruning. -/
theorem gone_iff (hlocate : fs.locate p = .ok loc) (hdir : fs.sight? loc = some .directory)
    {place : Location} :
    fs.sight? place = some .directory ∧ (fs.pruneAt p).2.sight? place = none ↔
      (loc <+: place ∧ fs.Hollow place) ∧ ¬Spared p loc place := by
  rw [sight?_pruneAt hlocate hdir, Hollow]
  constructor
  · rintro ⟨hplace, hnone⟩
    split at hnone
    · next h => exact ⟨⟨h.1, hplace, h.2.1⟩, h.2.2⟩
    · rw [hplace] at hnone
      cases hnone
  · rintro ⟨⟨hbelow, hplace, hholds⟩, hspared⟩
    exact ⟨hplace, if_pos ⟨hbelow, hholds, hspared⟩⟩

/-- Pruning counts the directories that it takes away. -/
theorem count_pruneAt (hlocate : fs.locate p = .ok loc)
    (hdir : fs.sight? loc = some .directory) :
    (fs.pruneAt p).1 = {place | fs.sight? place = some .directory ∧
      (fs.pruneAt p).2.sight? place = none}.ncard := by
  obtain ⟨es, hes⟩ := get?_eq_dir.mp hdir
  have hholds : fs.HoldsFile loc ↔ (Node.dir es).prune.1.isSome = true := by
    rw [Node.isSome_prune (Node.distinct_of_get? fs.distinct hes), ← holdsFile_append hes,
      List.append_nil]
  simp only [gone_iff hlocate hdir]
  by_cases hspared : removable p = false ∧ ¬fs.HoldsFile loc
  · -- the directory itself is hollow, but stays
    rcases pruneAt_eq hlocate hes with ⟨n, _, hprune, _⟩ | ⟨_, hcount, _⟩
    · rw [hholds, hprune] at hspared
      exact absurd rfl hspared.2
    · have hset : {place | (loc <+: place ∧ fs.Hollow place) ∧ ¬Spared p loc place} =
          {place | loc <+: place ∧ fs.Hollow place} \ {loc} := by
        ext place
        simp [Spared, hspared.1]
      have hmem : loc ∈ {place | loc <+: place ∧ fs.Hollow place} :=
        ⟨List.prefix_rfl, hdir, hspared.2⟩
      rw [hset, Set.ncard_sdiff_singleton_of_mem hmem, ← count_prune hes, hcount, hspared.1]
      rfl
  · have hset : {place | (loc <+: place ∧ fs.Hollow place) ∧ ¬Spared p loc place} =
        {place | loc <+: place ∧ fs.Hollow place} := by
      ext place
      refine and_iff_left_of_imp fun hplace hsame => hspared ⟨hsame.2, ?_⟩
      exact hsame.1 ▸ hplace.2.2
    rw [hset, ← count_prune hes]
    rcases pruneAt_eq hlocate hes with ⟨n, _, _, hcount, _⟩ | ⟨hprune, hcount, _⟩
    · exact hcount
    · have hremovable : removable p = true := by
        by_contra hnot
        refine hspared ⟨Bool.not_eq_true _ ▸ hnot, ?_⟩
        rw [hholds, hprune]
        decide
      rw [hcount, hremovable]
      rfl

/-- A walk that comes to everything after what is in it does what pruning does. -/
theorem sweep_eq_pruneAt (hlocate : fs.locate p = .ok loc)
    (hdir : fs.sight? loc = some .directory) (hremovable : removable p = true)
    {walk : List Location} (hwalk : fs.ContentsFirst loc walk) :
    (FileSystem.sweep walk fs).1 = (fs.pruneAt p).1 ∧
      (FileSystem.sweep walk fs).2.sight? = (fs.pruneAt p).2.sight? := by
  classical
  obtain ⟨front, name, hloc⟩ := exists_name_of_removable hlocate hremovable
  have hstart : fs.ContentsFirst loc ([].reverse ++ walk) := hwalk
  obtain ⟨hcount, hswept⟩ := (swept_nil fs).sweep (by simp [hloc]) hstart
  have hnot : ∀ place, ¬Spared p loc place := by
    rintro place ⟨_, hspared⟩
    rw [hremovable] at hspared
    cases hspared
  constructor
  · rw [hcount, hwalk.countP_hollow, count_pruneAt hlocate hdir]
    simp only [gone_iff hlocate hdir, hnot, not_false_eq_true, and_true]
  · funext place
    rw [hswept place, sight?_pruneAt hlocate hdir]
    by_cases hthere : (fs.sight? place).isSome = true
    · have hsame : place ∈ [].reverse ++ walk ∧ fs.Hollow place ↔
          loc <+: place ∧ ¬fs.HoldsFile place ∧ ¬Spared p loc place := by
        rw [List.reverse_nil, List.nil_append, hwalk.complete, and_iff_left hthere,
          and_iff_left (hnot place)]
        exact and_congr_right fun _ => ⟨(·.2), hollow_of_not_holdsFile hthere⟩
      simp only [hsame]
    · rw [Bool.not_eq_true, Option.isSome_eq_false_iff, Option.isNone_iff_eq_none] at hthere
      rw [hthere, ite_self, ite_self]

end

/-- **Pruning takes away just the directories without a file.** What is no directory is left alone.
Of a directory and of those below it just those stay that hold a file at some depth; every file
stays as it was, the directories that are gone are counted, and a second time nothing changes.
Going up from the deepest places and removing what is empty comes to the same. -/
theorem pruning_exact (fs : FileSystem) (p : Path) :
    (fs.isDir p = false → fs.pruneAt p = (0, fs)) ∧
    ∀ loc, fs.locate p = .ok loc → fs.sight? loc = some .directory →
      Pruned fs p loc (fs.pruneAt p).1 (fs.pruneAt p).2 := by
  refine ⟨pruneAt_eq_self, fun loc hlocate hdir => ?_⟩
  refine ⟨content?_pruneAt fs p, ?_, ?_, count_pruneAt hlocate hdir, pruneAt_again hlocate hdir,
    fun hremovable walk hwalk => sweep_eq_pruneAt hlocate hdir hremovable hwalk⟩
  · intro place hbelow
    constructor
    · intro hplace
      refine ⟨dir_of_pruneAt hplace, ?_⟩
      rw [← holdsFile_pruneAt (p := p)]
      exact holdsFile_of_dir hlocate hdir hbelow hplace
    · rintro ⟨hplace, hstays⟩
      rw [sight?_pruneAt hlocate hdir, if_neg, hplace]
      rintro ⟨_, hholds, hspared⟩
      exact hstays.elim hholds hspared
  · intro place houtside
    rw [sight?_pruneAt hlocate hdir, if_neg fun h => houtside h.1]

/-- A directory with empty directories in one another, and a file beside another empty one. -/
def nested : FileSystem :=
  put (put ⟨.dir [("d", .dir [("a", .dir [("b", .empty)])])], []⟩
    ["d", "x", "kept"] (.file "kept".toUTF8)) ["d", "x", "z"] .empty

/-- A way through it that comes to everything after what is in it. -/
def nestedWalk : List Location :=
  [["d", "a", "b"], ["d", "a"], ["d", "x", "kept"], ["d", "x", "z"], ["d", "x"], ["d"]]

theorem pruning_exact_nested :
    nested.locate ⟨"d"⟩ = .ok ["d"] ∧ nested.sight? ["d"] = some .directory ∧
      removable ⟨"d"⟩ = true ∧ nested.ContentsFirst ["d"] nestedWalk ∧
      Pruned nested ⟨"d"⟩ ["d"] 3 (nested.pruneAt ⟨"d"⟩).2 ∧
      (sweep nestedWalk nested).1 = 3 := by
  have hlocate : nested.locate ⟨"d"⟩ = .ok ["d"] := by decide +kernel
  have hdir : nested.sight? ["d"] = some .directory := by decide +kernel
  have hwalk : nested.ContentsFirst ["d"] nestedWalk :=
    contentsFirst_upwards (n := .dir [("a", .dir [("b", .empty)]),
      ("x", .dir [("kept", .file "kept".toUTF8), ("z", .empty)])]) rfl
  have hpruned := (pruning_exact nested ⟨"d"⟩).2 ["d"] hlocate hdir
  exact ⟨hlocate, hdir, by decide, hwalk, hpruned, (hpruned.sweep (by decide) _ hwalk).1⟩

end FileSystem

end Intake.Files
