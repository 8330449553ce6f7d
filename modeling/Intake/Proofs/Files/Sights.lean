import Intake.Files.System
import Mathlib.Logic.Function.Basic

/-!
# What is seen at a place

For the operations on paths, all that matters of a tree is what stands at each location:
a directory, a file with its content, or nothing. Putting a leaf somewhere and removing a
file change this view at one location only, so later modules argue about functions on
locations and do not open trees again.
-/

namespace Intake.Files

inductive Sight where
  | directory
  | file (content : ByteArray)

instance (there : Option Sight) : Decidable (there = some .directory) :=
  match there with
  | some .directory => isTrue rfl
  | some (.file _) => isFalse fun h => by cases h
  | none => isFalse fun h => by cases h

namespace Node

def sight : Node → Sight
  | .dir _ => .directory
  | .file content => .file content

def sight? (n : Node) (loc : Location) : Option Sight := (n.get? loc).map sight

/-! ## Entries -/

theorem lookup_entry_cons (key name : String) (n : Node) (es : List (String × Node)) :
    ((name, n) :: es).lookup key = if key = name then some n else es.lookup key := by
  rw [List.lookup_cons]
  by_cases h : key = name
  · rw [if_pos h, beq_iff_eq.mpr h]
  · rw [if_neg h, beq_false_of_ne h]

theorem lookup_setEntry (name key : String) (child : Node) (es : List (String × Node)) :
    (setEntry name child es).lookup key = if key = name then some child else es.lookup key := by
  induction es with
  | nil => rw [setEntry, lookup_entry_cons]
  | cons e rest ih =>
      obtain ⟨first, old⟩ := e
      rw [setEntry]
      by_cases hfirst : first = name
      · rw [if_pos hfirst, lookup_entry_cons, lookup_entry_cons, hfirst]
        by_cases hkey : key = name <;> simp [hkey]
      · rw [if_neg hfirst, lookup_entry_cons, lookup_entry_cons, ih]
        by_cases hkey : key = first
        · rw [if_pos hkey, if_neg (hkey ▸ hfirst), if_pos hkey]
        · rw [if_neg hkey, if_neg hkey]

theorem lookup_removeEntry (name key : String) (es : List (String × Node)) :
    (removeEntry name es).lookup key = if key = name then none else es.lookup key := by
  induction es with
  | nil => simp [removeEntry]
  | cons e rest ih =>
      obtain ⟨first, old⟩ := e
      rw [removeEntry] at ih ⊢
      by_cases hfirst : first = name
      · rw [List.filter_cons_of_neg (by simpa using hfirst), ih, lookup_entry_cons]
        by_cases hkey : key = name
        · rw [if_pos hkey, if_pos hkey]
        · rw [if_neg hkey, if_neg hkey, if_neg (hfirst ▸ hkey)]
      · rw [List.filter_cons_of_pos (by simpa using hfirst), lookup_entry_cons,
          lookup_entry_cons, ih]
        by_cases hkey : key = first
        · rw [if_pos hkey, if_neg (hkey ▸ hfirst), if_pos hkey]
        · rw [if_neg hkey, if_neg hkey]

/-! ## Locations -/

theorem get?_cons (n : Node) (name : String) (rest : Location) :
    n.get? (name :: rest) = (n.entries.lookup name).bind (·.get? rest) := by
  rw [get?]

theorem get?_append (n : Node) (loc rest : Location) :
    n.get? (loc ++ rest) = (n.get? loc).bind (·.get? rest) := by
  induction loc generalizing n with
  | nil => simp [get?]
  | cons name loc ih =>
      rw [List.cons_append, get?_cons, get?_cons]
      cases n.entries.lookup name with
      | none => rfl
      | some child => exact ih child

theorem sight?_nil (n : Node) : n.sight? [] = some n.sight := rfl

theorem sight?_file_cons (content : ByteArray) (name : String) (rest : Location) :
    (file content).sight? (name :: rest) = none := by
  rw [sight?, get?_cons]
  rfl

theorem sight?_dir_cons (es : List (String × Node)) (name : String) (rest : Location) :
    (dir es).sight? (name :: rest) = (es.lookup name).bind (·.sight? rest) := by
  rw [sight?, get?_cons]
  simp only [entries]
  cases es.lookup name with
  | none => rfl
  | some child => rfl

theorem sight_eq_directory {n : Node} : n.sight = .directory ↔ ∃ es, n = .dir es := by
  cases n with
  | file content => simp [sight]
  | dir es => simp [sight]

theorem sight?_eq_directory {n : Node} {loc : Location} :
    n.sight? loc = some .directory ↔ ∃ es, n.get? loc = some (.dir es) := by
  simp only [sight?, Option.map_eq_some_iff, sight_eq_directory]
  constructor
  · rintro ⟨_, h, es, rfl⟩
    exact ⟨es, h⟩
  · rintro ⟨es, h⟩
    exact ⟨_, h, es, rfl⟩

theorem sight?_eq_file {n : Node} {loc : Location} {content : ByteArray} :
    n.sight? loc = some (.file content) ↔ n.get? loc = some (.file content) := by
  rw [sight?, Option.map_eq_some_iff]
  constructor
  · rintro ⟨m, h, hm⟩
    cases m with
    | dir es => cases hm
    | file content' =>
        cases hm
        exact h
  · exact fun h => ⟨_, h, rfl⟩

/-- There is nothing below what is not a directory. -/
theorem sight?_append_cons {n : Node} {loc : Location} (h : n.sight? loc ≠ some .directory)
    (name : String) (rest : Location) : n.sight? (loc ++ name :: rest) = none := by
  rw [sight?, get?_append]
  cases hn : n.get? loc with
  | none => rfl
  | some m =>
      cases m with
      | dir es => exact absurd (sight?_eq_directory.mpr ⟨es, hn⟩) h
      | file content => exact sight?_file_cons content name rest

/-! ## Changes -/

/-- Putting something into a directory shows it there and changes nothing elsewhere. -/
theorem sight?_put (x : Node) (name : String) :
    ∀ {loc : Location} {n : Node}, n.sight? loc = some .directory → ∀ place : Location,
      (put x (loc ++ [name]) n).sight? place =
        if loc ++ [name] <+: place then x.sight? (place.drop (loc.length + 1))
        else n.sight? place
  | [], n, hdir, place => by
      obtain ⟨es, rfl⟩ := sight_eq_directory.mp (Option.some.inj hdir)
      rw [List.nil_append, put, put]
      cases place with
      | nil => simp [sight?_nil, sight]
      | cons key rest =>
          rw [sight?_dir_cons, sight?_dir_cons, lookup_setEntry]
          by_cases hkey : key = name
          · simp [hkey]
          · simp [hkey, Ne.symm hkey]
  | first :: loc, n, hdir, place => by
      -- a file has nothing below it, so the way to a directory begins at one
      cases n with
      | file content => rw [sight?_file_cons] at hdir; cases hdir
      | dir es =>
          rw [sight?_dir_cons] at hdir
          obtain ⟨child, hchild, hdir⟩ := Option.bind_eq_some_iff.mp hdir
          rw [List.cons_append, put, hchild, Option.getD_some]
          cases place with
          | nil => simp [sight?_nil, sight]
          | cons key rest =>
              rw [sight?_dir_cons, sight?_dir_cons, lookup_setEntry]
              by_cases hkey : key = first
              · rw [if_pos hkey, hkey, hchild]
                simpa [List.cons_prefix_cons] using sight?_put x name hdir rest
              · simp [hkey, Ne.symm hkey, List.cons_prefix_cons]

/-- Removing something leaves nothing there and changes nothing elsewhere. -/
theorem sight?_remove (name : String) :
    ∀ (loc : Location) (n : Node) (place : Location),
      (remove (loc ++ [name]) n).sight? place =
        if loc ++ [name] <+: place then none else n.sight? place
  | [], .file content, place => by
      cases place with
      | nil => simp [remove, sight?_nil]
      | cons key rest => simp [remove, sight?_file_cons]
  | [], .dir es, place => by
      rw [List.nil_append, remove]
      cases place with
      | nil => simp [sight?_nil, sight]
      | cons key rest =>
          rw [sight?_dir_cons, sight?_dir_cons, lookup_removeEntry]
          by_cases hkey : key = name
          · simp [hkey]
          · simp [hkey, Ne.symm hkey]
  | first :: loc, .file content, place => by
      rw [show remove (first :: loc ++ [name]) (file content) = file content by
        cases loc <;> rfl]
      cases place with
      | nil => simp [sight?_nil]
      | cons key rest => simp [sight?_file_cons]
  | first :: loc, .dir es, place => by
      -- `remove` tells the last name from the ones before it
      obtain ⟨next, tail, htail⟩ : ∃ next tail, loc ++ [name] = next :: tail := by
        cases loc with
        | nil => exact ⟨name, [], rfl⟩
        | cons next loc => exact ⟨next, loc ++ [name], rfl⟩
      rw [List.cons_append, htail, remove, ← htail]
      cases place with
      | nil => cases es.lookup first <;> simp [sight?_nil, sight]
      | cons key rest =>
          cases hchild : es.lookup first with
          | none =>
              rw [sight?_dir_cons]
              by_cases hkey : key = first
              · simp [hkey, hchild]
              · simp [Ne.symm hkey, List.cons_prefix_cons]
          | some child =>
              rw [sight?_dir_cons, sight?_dir_cons, lookup_setEntry]
              by_cases hkey : key = first
              · rw [if_pos hkey, hkey, hchild]
                simpa [List.cons_prefix_cons] using sight?_remove name loc child rest
              · simp [hkey, Ne.symm hkey, List.cons_prefix_cons]

end Node

namespace FileSystem

def sight? (fs : FileSystem) (loc : Location) : Option Sight := fs.root.sight? loc

/-- The content of the file at a location, if there is a file. -/
def content? (fs : FileSystem) (loc : Location) : Option ByteArray :=
  match fs.sight? loc with
  | some (.file content) => some content
  | _ => none

theorem content?_eq_some {fs : FileSystem} {loc : Location} {content : ByteArray} :
    fs.content? loc = some content ↔ fs.sight? loc = some (.file content) := by
  rw [content?]
  split
  · next h => simp [h]
  · next h =>
      constructor
      · intro hnone
        cases hnone
      · exact fun hfile => absurd hfile (h content)

theorem content?_congr {fs fs' : FileSystem} {loc : Location}
    (h : fs'.sight? loc = fs.sight? loc) : fs'.content? loc = fs.content? loc := by
  rw [content?, content?, h]

theorem get?_eq_dir {fs : FileSystem} {loc : Location} :
    fs.sight? loc = some .directory ↔ ∃ es, fs.get? loc = some (.dir es) :=
  Node.sight?_eq_directory

theorem get?_eq_file {fs : FileSystem} {loc : Location} {content : ByteArray} :
    fs.sight? loc = some (.file content) ↔ fs.get? loc = some (.file content) :=
  Node.sight?_eq_file

theorem get?_eq_none {fs : FileSystem} {loc : Location} :
    fs.sight? loc = none ↔ fs.get? loc = none := by
  rw [sight?, Node.sight?, Option.map_eq_none_iff]
  rfl

theorem isSome_entry? (fs : FileSystem) (loc : Location) (name : String) :
    ( fs.entry? loc name).isSome = (fs.sight? (loc ++ [name])).isSome := by
  rw [sight?, Node.sight?, Option.isSome_map]
  rfl

/-- There is nothing below what is not a directory. -/
theorem sight?_below {fs : FileSystem} {loc : Location} (h : fs.sight? loc ≠ some .directory)
    (name : String) (rest : Location) : fs.sight? (loc ++ name :: rest) = none :=
  Node.sight?_append_cons h name rest

/-- Where something is, there are directories on the way to it. -/
theorem sight?_above {fs : FileSystem} {loc : Location} {name : String} {rest : Location}
    (h : (fs.sight? (loc ++ name :: rest)).isSome) : fs.sight? loc = some .directory := by
  by_contra hdir
  rw [sight?_below hdir] at h
  cases h

theorem sight?_put {fs : FileSystem} {loc : Location} (name : String) (x : Node) [x.Distinct]
    (hdir : fs.sight? loc = some .directory) (place : Location) :
    (fs.put (loc ++ [name]) x).sight? place =
      if loc ++ [name] <+: place then x.sight? (place.drop (loc.length + 1))
      else fs.sight? place :=
  Node.sight?_put x name hdir place

theorem sight?_remove (fs : FileSystem) (loc : Location) (name : String) (place : Location) :
    (fs.remove (loc ++ [name])).sight? place =
      if loc ++ [name] <+: place then none else fs.sight? place :=
  Node.sight?_remove name loc fs.root place

/-- What differs at a place without a directory, and shows nothing below it, differs there
alone. -/
theorem sight?_eq_update {fs : FileSystem} {place : Location} {view : Location → Option Sight}
    (hplace : fs.sight? place ≠ some .directory)
    (hbelow : ∀ name rest, view (place ++ name :: rest) = none)
    (helse : ∀ other, ¬place <+: other → view other = fs.sight? other) :
    view = Function.update fs.sight? place (view place) := by
  funext other
  by_cases heq : other = place
  · rw [heq, Function.update_self]
  · rw [Function.update_of_ne heq]
    by_cases hpre : place <+: other
    · obtain ⟨rest, rfl⟩ := hpre
      cases rest with
      | nil => simp at heq
      | cons name rest => rw [hbelow, sight?_below hplace]
    · exact helse other hpre

/-- A leaf that takes the place of a file or of nothing is all that changes. -/
theorem sight?_put_leaf {fs : FileSystem} {loc : Location} {name : String} {x : Node}
    [x.Distinct] (hdir : fs.sight? loc = some .directory)
    (hplace : fs.sight? (loc ++ [name]) ≠ some .directory) (hleaf : x.entries = []) :
    (fs.put (loc ++ [name]) x).sight? =
      Function.update fs.sight? (loc ++ [name]) (some x.sight) := by
  have hput := sight?_put name x hdir
  have hat : (fs.put (loc ++ [name]) x).sight? (loc ++ [name]) = some x.sight := by
    rw [hput, if_pos List.prefix_rfl]
    simp [Node.sight?_nil]
  rw [← hat]
  refine sight?_eq_update hplace ?_ ?_
  · intro next rest
    rw [hput, if_pos (List.prefix_append _ _)]
    simp [Node.sight?, Node.get?_cons, hleaf]
  · intro other hother
    rw [hput, if_neg hother]

/-- A file that is removed is all that changes. -/
theorem sight?_remove_leaf {fs : FileSystem} {loc : Location} {name : String}
    (hplace : fs.sight? (loc ++ [name]) ≠ some .directory) :
    (fs.remove (loc ++ [name])).sight? =
      Function.update fs.sight? (loc ++ [name]) none := by
  have hremove := sight?_remove fs loc name
  have hat : (fs.remove (loc ++ [name])).sight? (loc ++ [name]) = none := by
    rw [hremove, if_pos List.prefix_rfl]
  rw [← hat]
  refine sight?_eq_update hplace ?_ ?_
  · intro next rest
    rw [hremove, if_pos (List.prefix_append _ _)]
  · intro other hother
    rw [hremove, if_neg hother]

end FileSystem

end Intake.Files
