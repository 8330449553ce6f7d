import Intake.Files.Pruning
import Intake.Proofs.Files.Walks

/-!
# What pruning takes away

A directory stays if and only if there is a file in it at some depth. No file is taken
away, and nothing outside the directory that is pruned.
-/

namespace Intake.Files

namespace Node

/-- Whether there is a file at a location or at some depth below it. -/
def HoldsFile (n : Node) (loc : Location) : Prop :=
  ∃ rest content, n.sight? (loc ++ rest) = some (.file content)

/-! ## Entries -/

theorem lookup_of_mem {es : List (String × Node)} (hnames : (es.map (·.1)).Nodup)
    {e : String × Node} (h : e ∈ es) : es.lookup e.1 = some e.2 := by
  induction es with
  | nil => cases h
  | cons first rest ih =>
      obtain ⟨hfirst, hrest⟩ := List.nodup_cons.mp hnames
      rw [show first = (first.1, first.2) from rfl, lookup_entry_cons]
      rcases List.mem_cons.mp h with rfl | h
      · rw [if_pos rfl]
      · rw [if_neg]
        · exact ih hrest h
        · intro heq
          exact hfirst (List.mem_map.mpr ⟨e, h, heq⟩)

theorem lookup_eq_none {es : List (String × Node)} {name : String}
    (h : name ∉ es.map (·.1)) : es.lookup name = none := by
  cases hlookup : es.lookup name with
  | none => rfl
  | some n => exact absurd (List.mem_map_of_mem (mem_of_lookup hlookup)) h

theorem lookup_pruneEntries {es : List (String × Node)} (hnames : (es.map (·.1)).Nodup)
    (name : String) :
    (pruneEntries es).1.lookup name = (es.lookup name).bind (·.prune.1) := by
  induction es generalizing name with
  | nil => simp [pruneEntries]
  | cons first rest ih =>
      obtain ⟨key, n⟩ := first
      obtain ⟨hkey, hrest⟩ := List.nodup_cons.mp hnames
      rw [lookup_entry_cons]
      simp only [pruneEntries]
      by_cases hname : name = key
      · rw [if_pos hname, Option.bind_some, hname]
        split
        · next kept hkept => rw [lookup_entry_cons, if_pos rfl, hkept]
        · next hkept => rw [ih hrest key, lookup_eq_none hkey, hkept]; rfl
      · rw [if_neg hname]
        split
        · rw [lookup_entry_cons, if_neg hname, ih hrest]
        · exact ih hrest name

/-! ## What is left -/

theorem holdsFile_child {es : List (String × Node)} {name : String} {child : Node}
    {loc : Location} (hchild : es.lookup name = some child) :
    (dir es).HoldsFile (name :: loc) ↔ child.HoldsFile loc := by
  simp only [HoldsFile, List.cons_append, sight?_dir_cons, hchild, Option.bind_some]

mutual

theorem holdsFile_of_prune :
    ∀ {n : Node}, n.Distinct → n.prune.1.isSome = true → n.HoldsFile []
  | .file content, _, _ => ⟨[], content, rfl⟩
  | .dir es, h, hkept => by
    obtain ⟨hnames, hes⟩ := distinct_dir_iff.mp h
    have hne : (pruneEntries es).1 ≠ [] := by
      intro hnil
      simp [prune, hnil] at hkept
    obtain ⟨e, he, rest, content, hfile⟩ := holdsFile_of_pruneEntries hes hne
    refine ⟨e.1 :: rest, content, ?_⟩
    rw [List.nil_append, sight?_dir_cons, lookup_of_mem hnames he]
    exact hfile
termination_by structural n => n

theorem holdsFile_of_pruneEntries :
    ∀ {es : List (String × Node)}, (∀ e ∈ es, e.2.Distinct) → (pruneEntries es).1 ≠ [] →
      ∃ e ∈ es, e.2.HoldsFile []
  | [], _, hne => absurd rfl hne
  | (name, n) :: rest, h, hne => by
    by_cases hn : n.prune.1.isSome = true
    · exact ⟨_, List.mem_cons_self, holdsFile_of_prune (h _ List.mem_cons_self) hn⟩
    · have hnone := Option.not_isSome_iff_eq_none.mp hn
      simp only [pruneEntries, hnone] at hne
      obtain ⟨e, he, hfile⟩ :=
        holdsFile_of_pruneEntries (fun e he => h e (List.mem_cons_of_mem _ he)) hne
      exact ⟨e, List.mem_cons_of_mem _ he, hfile⟩

end

theorem isSome_prune_of_file {rest : Location} {content : ByteArray} :
    ∀ {n : Node}, n.Distinct → n.sight? rest = some (.file content) →
      n.prune.1.isSome = true := by
  induction rest with
  | nil =>
      intro n _ hfile
      cases n with
      | file content' => rfl
      | dir es => cases hfile
  | cons name rest ih =>
      intro n h hfile
      cases n with
      | file content' => rfl
      | dir es =>
          obtain ⟨hnames, hes⟩ := distinct_dir_iff.mp h
          rw [sight?_dir_cons] at hfile
          obtain ⟨child, hchild, hfile⟩ := Option.bind_eq_some_iff.mp hfile
          have hkept := ih (distinct_child h hchild) hfile
          have hlookup := lookup_pruneEntries hnames name
          rw [hchild, Option.bind_some] at hlookup
          simp only [prune]
          split
          · next hempty =>
              rw [List.isEmpty_iff.mp hempty] at hlookup
              rw [← hlookup] at hkept
              cases hkept
          · rfl

theorem isSome_prune {n : Node} (h : n.Distinct) :
    n.prune.1.isSome = true ↔ n.HoldsFile [] :=
  ⟨holdsFile_of_prune h, fun ⟨_, _, hfile⟩ => isSome_prune_of_file h hfile⟩

open Classical in
/-- Pruning leaves all that is a file or holds one, and nothing else. -/
theorem sight?_prune (loc : Location) :
    ∀ {n : Node}, n.Distinct →
      (n.prune.1.bind (·.sight? loc)) = if n.HoldsFile loc then n.sight? loc else none := by
  induction loc with
  | nil =>
      intro n h
      cases hkept : n.prune.1 with
      | none =>
          have hnone := mt (isSome_prune h).mpr (by rw [hkept]; simp)
          rw [if_neg hnone]
          rfl
      | some kept =>
          have hsome := (isSome_prune h).mp (by rw [hkept]; rfl)
          rw [if_pos hsome]
          cases n with
          | file content =>
              cases hkept
              rfl
          | dir es =>
              simp only [prune] at hkept
              split at hkept
              · cases hkept
              · cases hkept
                rfl
  | cons name loc ih =>
      intro n h
      cases n with
      | file content =>
          rw [sight?_file_cons, ite_self]
          exact sight?_file_cons content name loc
      | dir es =>
          obtain ⟨hnames, hes⟩ := distinct_dir_iff.mp h
          -- the entries that are left are looked up, also when there are none
          have hkept : (dir es).prune.1.bind (·.sight? (name :: loc)) =
              ((pruneEntries es).1.lookup name).bind (·.sight? loc) := by
            simp only [prune]
            split
            · next hempty =>
                rw [List.isEmpty_iff.mp hempty]
                rfl
            · exact sight?_dir_cons _ name loc
          rw [hkept, lookup_pruneEntries hnames, sight?_dir_cons]
          cases hchild : es.lookup name with
          | none => rw [Option.bind_none, Option.bind_none, ite_self]
          | some child =>
              rw [Option.bind_some, Option.bind_some, ih (distinct_child h hchild)]
              simp only [holdsFile_child hchild]

end Node

namespace FileSystem

/-- Whether there is a file at a place or at some depth below it. -/
def HoldsFile (fs : FileSystem) (place : Location) : Prop := fs.root.HoldsFile place

theorem holdsFile_iff {fs : FileSystem} {place : Location} :
    fs.HoldsFile place ↔ ∃ rest content, fs.sight? (place ++ rest) = some (.file content) :=
  Iff.rfl

/-- Putting something in the place of what is there changes that place and what is below. -/
theorem sight?_put_over {fs : FileSystem} {loc : Location} {x : Node} [x.Distinct]
    (hloc : (fs.sight? loc).isSome = true) (place : Location) :
    (fs.put loc x).sight? place =
      if loc <+: place then x.sight? (place.drop loc.length) else fs.sight? place := by
  by_cases hroot : loc = []
  · subst hroot
    rw [if_pos (List.nil_prefix)]
    rfl
  · obtain ⟨front, name, rfl⟩ : ∃ front name, loc = front ++ [name] :=
      ⟨_, _, (List.dropLast_concat_getLast hroot).symm⟩
    rw [sight?_put name x (sight?_above hloc) place, List.length_append]
    rfl

theorem sight?_append {fs : FileSystem} {loc : Location} {n : Node}
    (h : fs.get? loc = some n) (rest : Location) : fs.sight? (loc ++ rest) = n.sight? rest := by
  rw [get?] at h
  rw [sight?, Node.sight?, Node.get?_append, h]
  rfl

theorem holdsFile_append {fs : FileSystem} {loc : Location} {n : Node}
    (h : fs.get? loc = some n) (rest : Location) :
    fs.HoldsFile (loc ++ rest) ↔ n.HoldsFile rest := by
  simp only [holdsFile_iff, Node.HoldsFile, List.append_assoc, sight?_append h]

/-- A directory that can be removed by a path is named at the end of it. -/
theorem exists_name_of_removable {fs : FileSystem} {p : Path} {loc : Location}
    (hlocate : fs.locate p = .ok loc) (h : removable p = true) :
    ∃ front name, loc = front ++ [name] := by
  rw [removable] at h
  split at h
  · next name hlast =>
      rw [location_of_locate hlocate, Path.location, ← names_split hlast, List.foldl_append]
      refine ⟨p.names.dropLast.foldl Location.enter (p.origin fs.cwd), name, ?_⟩
      simp only [isDots, Bool.not_eq_true', Bool.or_eq_false_iff, beq_eq_false_iff_ne] at h
      rw [List.foldl_cons, List.foldl_nil, Location.enter, if_neg h.1, if_neg h.2]
  · cases h

/-- Whether pruning leaves the directory that it begins with, though it is empty. -/
def Spared (p : Path) (loc place : Location) : Prop := place = loc ∧ removable p = false

/-- What the directory at a path turns into, and what is counted. -/
theorem pruneAt_eq {fs : FileSystem} {p : Path} {loc : Location} {es : List (String × Node)}
    (hlocate : fs.locate p = .ok loc) (hes : fs.get? loc = some (.dir es)) :
    (∃ (n : Node) (_ : n.Distinct), (Node.dir es).prune.1 = some n ∧
        (fs.pruneAt p).1 = (Node.dir es).prune.2 ∧ (fs.pruneAt p).2 = fs.put loc n) ∨
      (Node.dir es).prune.1 = none ∧
        (fs.pruneAt p).1 = (Node.dir es).prune.2 - (if removable p then 0 else 1) ∧
        (fs.pruneAt p).2 = if removable p then fs.remove loc else fs.put loc .empty := by
  rw [pruneAt, hlocate]
  simp only
  split
  · next es' hes' =>
      obtain rfl : es' = es := by
        rw [hes] at hes'
        cases hes'
        rfl
      split
      · next n count hkept =>
          exact Or.inl ⟨n, Node.distinct_prune (Node.distinct_of_get? fs.distinct hes)
            (congrArg (·.1) hkept), congrArg (·.1) hkept, (congrArg (·.2) hkept).symm, rfl⟩
      · next count hkept =>
          refine Or.inr ⟨congrArg (·.1) hkept, ?_⟩
          rw [hkept]
          split <;> exact ⟨rfl, rfl⟩
  · next hother => exact absurd hes (hother es)

open Classical in
/-- **Pruning takes away the directories without a file, and nothing else.** -/
theorem sight?_pruneAt {fs : FileSystem} {p : Path} {loc : Location}
    (hlocate : fs.locate p = .ok loc) (hdir : fs.sight? loc = some .directory)
    (place : Location) :
    (fs.pruneAt p).2.sight? place =
      if loc <+: place ∧ ¬fs.HoldsFile place ∧ ¬Spared p loc place then none
      else fs.sight? place := by
  obtain ⟨es, hes⟩ := get?_eq_dir.mp hdir
  have hdistinct := Node.distinct_of_get? fs.distinct hes
  have hsome : (fs.sight? loc).isSome = true := by rw [hdir]; rfl
  by_cases hpre : loc <+: place
  · obtain ⟨rest, rfl⟩ := hpre
    rw [sight?_append hes, holdsFile_append hes]
    have hdrop : (loc ++ rest).drop loc.length = rest := List.drop_left
    rcases pruneAt_eq hlocate hes with ⟨n, hn, hkept, _, heq⟩ | ⟨hkept, _, heq⟩
    · have hleft := Node.sight?_prune rest hdistinct
      rw [hkept, Option.bind_some] at hleft
      rw [heq, sight?_put_over hsome, if_pos (List.prefix_append _ _), hdrop, hleft]
      by_cases hholds : (Node.dir es).HoldsFile rest
      · rw [if_pos hholds, if_neg fun h => h.2.1 hholds]
      · have hspared : ¬Spared p loc (loc ++ rest) := by
          rintro ⟨hsame, _⟩
          obtain rfl := List.append_right_eq_self.mp hsame
          exact hholds ((Node.isSome_prune hdistinct).mp (by rw [hkept]; rfl))
        rw [if_neg hholds, if_pos ⟨List.prefix_append _ _, hholds, hspared⟩]
    · have hholds : ¬(Node.dir es).HoldsFile rest := by
        rintro ⟨below, content, hfile⟩
        have hkept' := Node.isSome_prune_of_file hdistinct hfile
        rw [hkept] at hkept'
        cases hkept'
      -- nothing is left of the directory, but for itself where it cannot be removed
      rw [heq]
      by_cases hremovable : removable p = true
      · obtain ⟨front, name, rfl⟩ := exists_name_of_removable hlocate hremovable
        have hspared : ¬Spared p (front ++ [name]) (front ++ [name] ++ rest) := by
          rintro ⟨_, h⟩
          rw [hremovable] at h
          cases h
        rw [if_pos hremovable, sight?_remove, if_pos (List.prefix_append _ _),
          if_pos ⟨List.prefix_append _ _, hholds, hspared⟩]
      · rw [if_neg hremovable, sight?_put_over hsome, if_pos (List.prefix_append _ _), hdrop]
        cases rest with
        | nil =>
            rw [if_neg fun h => h.2.2 ⟨List.append_nil _, Bool.not_eq_true _ ▸ hremovable⟩]
            rfl
        | cons name rest =>
            have hspared : ¬Spared p loc (loc ++ name :: rest) := by
              rintro ⟨hsame, _⟩
              simp at hsame
            rw [if_pos ⟨List.prefix_append _ _, hholds, hspared⟩]
            rfl
  · rw [if_neg fun h => hpre h.1]
    rcases pruneAt_eq hlocate hes with ⟨n, hn, _, _, heq⟩ | ⟨_, _, heq⟩
    · rw [heq, sight?_put_over hsome, if_neg hpre]
    · rw [heq]
      by_cases hremovable : removable p = true
      · obtain ⟨front, name, rfl⟩ := exists_name_of_removable hlocate hremovable
        rw [if_pos hremovable, sight?_remove, if_neg hpre]
      · rw [if_neg hremovable, sight?_put_over hsome, if_neg hpre]

/-- What is not a directory is left alone. -/
theorem pruneAt_eq_self {fs : FileSystem} {p : Path} (h : fs.isDir p = false) :
    fs.pruneAt p = (0, fs) := by
  rw [pruneAt]
  split
  · rfl
  · next loc hlocate =>
      split
      · next es hes =>
          have hdir := isDir_iff.mpr ⟨loc, hlocate, get?_eq_dir.mpr ⟨es, hes⟩⟩
          rw [h] at hdir
          cases hdir
      · rfl

theorem pruneAt_of_not_isDir {fs : FileSystem} {p : Path} (h : fs.isDir p = false) :
    (fs.pruneAt p).2 = fs := by
  rw [pruneAt_eq_self h]

theorem cwd_pruneAt (fs : FileSystem) (p : Path) : (fs.pruneAt p).2.cwd = fs.cwd := by
  rw [pruneAt]
  split
  · rfl
  · split
    · split
      · rfl
      · split <;> rfl
    · rfl

/-- What is seen at a place stays, or it was a directory without a file at the path or below. -/
theorem sight?_pruneAt_or (fs : FileSystem) (p : Path) (place : Location) :
    (fs.pruneAt p).2.sight? place = fs.sight? place ∨
      (fs.pruneAt p).2.sight? place = none ∧ p.location fs.cwd <+: place ∧
        ¬fs.HoldsFile place := by
  by_cases hdir : fs.isDir p = true
  · obtain ⟨loc, hlocate, hsight⟩ := isDir_iff.mp hdir
    rw [sight?_pruneAt hlocate hsight, ← location_of_locate hlocate]
    split
    · next h => exact Or.inr ⟨rfl, h.1, h.2.1⟩
    · exact Or.inl rfl
  · rw [pruneAt_of_not_isDir (Bool.not_eq_true _ ▸ hdir)]
    exact Or.inl rfl

theorem holdsFile_of_content? {fs : FileSystem} {place : Location} {content : ByteArray}
    (h : fs.content? place = some content) : fs.HoldsFile place :=
  ⟨[], content, by rw [List.append_nil]; exact content?_eq_some.mp h⟩

theorem content?_pruneAt (fs : FileSystem) (p : Path) (place : Location) :
    (fs.pruneAt p).2.content? place = fs.content? place := by
  rcases fs.sight?_pruneAt_or p place with h | ⟨hnone, _, hholds⟩
  · exact content?_congr h
  · cases hcontent : fs.content? place with
    | none => rw [content?, hnone]
    | some content => exact absurd (holdsFile_of_content? hcontent) hholds

theorem dir_of_pruneAt {fs : FileSystem} {p : Path} {place : Location}
    (h : (fs.pruneAt p).2.sight? place = some .directory) :
    fs.sight? place = some .directory := by
  rcases fs.sight?_pruneAt_or p place with hsame | ⟨hnone, _⟩
  · rw [← hsame, h]
  · rw [hnone] at h
    cases h

theorem holdsFile_pruneAt {fs : FileSystem} {p : Path} {place : Location} :
    (fs.pruneAt p).2.HoldsFile place ↔ fs.HoldsFile place := by
  simp only [holdsFile_iff, ← content?_eq_some, content?_pruneAt]

/-- At and below the directory that was pruned, a directory that is left holds a file, unless
it is that directory itself and cannot be removed by its path. -/
theorem holdsFile_of_dir {fs : FileSystem} {p : Path} {loc place : Location}
    (hlocate : fs.locate p = .ok loc) (hdir : fs.sight? loc = some .directory)
    (hbelow : loc <+: place) (h : (fs.pruneAt p).2.sight? place = some .directory) :
    (fs.pruneAt p).2.HoldsFile place ∨ Spared p loc place := by
  rw [holdsFile_pruneAt]
  by_contra hneither
  rw [not_or] at hneither
  rw [sight?_pruneAt hlocate hdir, if_pos ⟨hbelow, hneither⟩] at h
  cases h

end FileSystem

end Intake.Files
