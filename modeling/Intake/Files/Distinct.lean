import Intake.Files.Tree

/-!
# Trees without double names

In a directory no name stands twice, so a name leads to at most one thing. The changes of
a tree keep it so, and a file system carries the proof with its tree.
-/

namespace Intake.Files.Node

/-- No directory of the tree has two entries of one name. -/
class inductive Distinct : Node → Prop where
  | file (content : ByteArray) : Distinct (.file content)
  | dir {es : List (String × Node)} :
      (es.map (·.1)).Nodup → (∀ e ∈ es, Distinct e.2) → Distinct (.dir es)

theorem distinct_dir_iff {es : List (String × Node)} :
    (dir es).Distinct ↔ (es.map (·.1)).Nodup ∧ ∀ e ∈ es, e.2.Distinct :=
  ⟨fun h => by cases h with | dir hnames hes => exact ⟨hnames, hes⟩, fun h => .dir h.1 h.2⟩

instance (content : ByteArray) : (file content).Distinct := .file content

instance : empty.Distinct := .dir .nil fun _ h => nomatch h

instance (name : String) (n : Node) [h : n.Distinct] : (dir [(name, n)]).Distinct :=
  .dir (by simp) (by simpa using h)

theorem mem_of_lookup {name : String} {n : Node} {es : List (String × Node)}
    (h : es.lookup name = some n) : (name, n) ∈ es := by
  induction es with
  | nil => cases h
  | cons e rest ih =>
    obtain ⟨first, child⟩ := e
    rw [List.lookup_cons] at h
    split at h
    · next heq =>
      have hname : name = first := by simpa using heq
      cases h
      exact hname ▸ List.mem_cons_self
    · exact List.mem_cons_of_mem _ (ih h)

theorem distinct_child {es : List (String × Node)} (h : (dir es).Distinct) {name : String}
    {n : Node} (hn : es.lookup name = some n) : n.Distinct :=
  (distinct_dir_iff.mp h).2 _ (mem_of_lookup hn)

theorem distinct_of_get? :
    ∀ {loc : Location} {n m : Node}, n.Distinct → n.get? loc = some m → m.Distinct
  | [], _, _, h, hm => by
    cases hm
    exact h
  | name :: rest, .file _, _, _, hm => by cases hm
  | name :: rest, .dir es, m, h, hm => by
    obtain ⟨child, hchild, hm⟩ := Option.bind_eq_some_iff.mp hm
    exact distinct_of_get? (distinct_child h hchild) hm

theorem mem_setEntry {name : String} {child : Node} {e : String × Node} :
    ∀ {es : List (String × Node)}, e ∈ setEntry name child es → e ∈ es ∨ e = (name, child)
  | [], h => by simpa [setEntry] using h
  | first :: rest, h => by
    rw [setEntry] at h
    split at h
    · rcases List.mem_cons.mp h with rfl | h
      · exact Or.inr rfl
      · exact Or.inl (List.mem_cons_of_mem _ h)
    · rcases List.mem_cons.mp h with rfl | h
      · exact Or.inl List.mem_cons_self
      · exact (mem_setEntry h).imp_left (List.mem_cons_of_mem _)

theorem names_setEntry {name : String} {child : Node} :
    ∀ {es : List (String × Node)}, (es.map (·.1)).Nodup →
      ((setEntry name child es).map (·.1)).Nodup
  | [], _ => by simp [setEntry]
  | first :: rest, h => by
    obtain ⟨hfirst, hrest⟩ := List.nodup_cons.mp h
    rw [setEntry]
    split
    · next heq => exact List.nodup_cons.mpr ⟨heq ▸ hfirst, hrest⟩
    · next hne =>
      refine List.nodup_cons.mpr ⟨?_, names_setEntry hrest⟩
      intro hmem
      obtain ⟨e, he, hname⟩ := List.mem_map.mp hmem
      rcases mem_setEntry he with he | rfl
      · exact hfirst (hname ▸ List.mem_map_of_mem he)
      · exact hne hname.symm

theorem distinct_setEntry {es : List (String × Node)} (h : (dir es).Distinct) (name : String)
    {child : Node} (hchild : child.Distinct) : (dir (setEntry name child es)).Distinct := by
  obtain ⟨hnames, hes⟩ := distinct_dir_iff.mp h
  refine .dir (names_setEntry hnames) ?_
  intro e he
  rcases mem_setEntry he with he | rfl
  · exact hes e he
  · exact hchild

theorem distinct_removeEntry {es : List (String × Node)} (h : (dir es).Distinct)
    (name : String) : (dir (removeEntry name es)).Distinct := by
  obtain ⟨hnames, hes⟩ := distinct_dir_iff.mp h
  refine .dir ?_ fun e he => hes e (List.mem_filter.mp he).1
  exact hnames.sublist (List.Sublist.map _ List.filter_sublist)

instance distinct_put {x : Node} [hx : x.Distinct] :
    ∀ (loc : Location) (n : Node) [n.Distinct], (put x loc n).Distinct
  | [], _, _ => hx
  | _ :: _, .file content, _ => .file content
  | name :: rest, .dir es, h => by
    rw [put]
    refine distinct_setEntry h name ?_
    cases hn : es.lookup name with
    | none => exact distinct_put rest .empty
    | some child =>
      have := distinct_child h hn
      exact distinct_put rest child

instance distinct_remove :
    ∀ (loc : Location) (n : Node) [n.Distinct], (remove loc n).Distinct
  | [], _, h => by rw [remove]; exact h
  | [_], .file content, _ | _ :: _ :: _, .file content, _ => .file content
  | [name], .dir es, h => distinct_removeEntry h name
  | name :: next :: rest, .dir es, h => by
    rw [remove]
    split
    · next child hn =>
      have := distinct_child h hn
      exact distinct_setEntry h name (distinct_remove (next :: rest) child)
    · exact h

mutual

/-- What is left of a tree without the empty directories has no double names. -/
theorem distinct_prune :
    ∀ {n : Node}, n.Distinct → ∀ {kept : Node}, n.prune.1 = some kept → kept.Distinct
  | .file content, _, kept, hkept => by
    cases hkept
    exact .file content
  | .dir es, h, kept, hkept => by
    obtain ⟨hnames, hes⟩ := distinct_dir_iff.mp h
    obtain ⟨hsub, hkids⟩ := distinct_pruneEntries hes
    simp only [prune] at hkept
    split at hkept
    · cases hkept
    · cases hkept
      exact .dir (hnames.sublist hsub) hkids
termination_by structural n => n

theorem distinct_pruneEntries :
    ∀ {es : List (String × Node)}, (∀ e ∈ es, e.2.Distinct) →
      ((pruneEntries es).1.map (·.1)).Sublist (es.map (·.1)) ∧
        ∀ e ∈ (pruneEntries es).1, e.2.Distinct
  | [], _ => by simp [pruneEntries]
  | (name, n) :: rest, h => by
    obtain ⟨hsub, hkids⟩ := distinct_pruneEntries fun e he => h e (List.mem_cons_of_mem _ he)
    have hn := h (name, n) List.mem_cons_self
    simp only [pruneEntries]
    split
    · next kept hkept =>
      refine ⟨hsub.cons_cons name, ?_⟩
      intro e he
      rcases List.mem_cons.mp he with rfl | he
      · exact distinct_prune hn hkept
      · exact hkids e he
    · exact ⟨hsub.cons name, hkids⟩

end

end Intake.Files.Node
