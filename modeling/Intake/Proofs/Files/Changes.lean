import Intake.Files.Publish
import Intake.Proofs.Files.Paths
import Intake.Proofs.Files.Walks
import Mathlib.Data.Set.Insert

/-!
# What changes a file system

Each operation on paths is described once by what it changes: the files whose content it
may change, and the places where it may make directories. No operation on one path takes
a directory away, so a directory that is there stays and can be reached as before.
-/

namespace Intake.Files

/-- All that may differ after a change: files at the places in `files`, and directories
made at places in `dirs`. -/
structure Touched (files dirs : Set Location) (before after : FileSystem) : Prop where
  cwd : after.cwd = before.cwd
  contents : ∀ loc, loc ∉ files → after.content? loc = before.content? loc
  kept : ∀ loc, before.sight? loc = some .directory → after.sight? loc = some .directory
  made : ∀ loc, after.sight? loc = some .directory →
    before.sight? loc = some .directory ∨ loc ∈ dirs

namespace Touched

variable {files files' dirs dirs' : Set Location} {a b c : FileSystem}

theorem refl (a : FileSystem) : Touched files dirs a a :=
  ⟨rfl, fun _ _ => rfl, fun _ h => h, fun _ h => Or.inl h⟩

theorem trans (hab : Touched files dirs a b) (hbc : Touched files dirs b c) :
    Touched files dirs a c where
  cwd := hbc.cwd.trans hab.cwd
  contents loc h := (hbc.contents loc h).trans (hab.contents loc h)
  kept loc h := hbc.kept loc (hab.kept loc h)
  made loc h := by
    rcases hbc.made loc h with h | h
    · exact hab.made loc h
    · exact Or.inr h

theorem mono (h : Touched files dirs a b) (hfiles : files ⊆ files') (hdirs : dirs ⊆ dirs') :
    Touched files' dirs' a b where
  cwd := h.cwd
  contents loc hloc := h.contents loc fun hmem => hloc (hfiles hmem)
  kept := h.kept
  made loc hloc := (h.made loc hloc).imp_right fun hmem => hdirs hmem

/-- A file, or nothing, in the place of a file or of nothing. -/
theorem of_leaf {place : Location} {there : Option Sight} (hcwd : b.cwd = a.cwd)
    (hplace : a.sight? place ≠ some .directory) (hthere : there ≠ some .directory)
    (h : b.sight? = Function.update a.sight? place there) : Touched {place} ∅ a b where
  cwd := hcwd
  contents loc hloc := FileSystem.content?_congr (by rw [h, Function.update_of_ne hloc])
  kept loc hloc := by
    have hne : loc ≠ place := fun heq => hplace (heq ▸ hloc)
    rw [h, Function.update_of_ne hne, hloc]
  made loc hloc := by
    have hne : loc ≠ place := by
      rintro rfl
      rw [h, Function.update_self] at hloc
      exact hthere hloc
    rw [h, Function.update_of_ne hne] at hloc
    exact Or.inl hloc

/-- A directory where nothing was. -/
theorem of_directory {place : Location} (hcwd : b.cwd = a.cwd) (hplace : a.sight? place = none)
    (h : b.sight? = Function.update a.sight? place (some .directory)) :
    Touched ∅ {place} a b where
  cwd := hcwd
  contents loc _ := by
    by_cases heq : loc = place
    · rw [FileSystem.content?, FileSystem.content?, h, heq, Function.update_self, hplace]
    · exact FileSystem.content?_congr (by rw [h, Function.update_of_ne heq])
  kept loc hloc := by
    by_cases heq : loc = place
    · rw [h, heq, Function.update_self]
    · rw [h, Function.update_of_ne heq, hloc]
  made loc hloc := by
    by_cases heq : loc = place
    · exact Or.inr heq
    · rw [h, Function.update_of_ne heq] at hloc
      exact Or.inl hloc

end Touched

theorem Touched.sight? {files dirs : Set Location} {a b : FileSystem}
    (h : Touched files dirs a b) {loc : Location} (hfiles : loc ∉ files) (hdirs : loc ∉ dirs) :
    b.sight? loc = a.sight? loc := by
  have hcontent := h.contents loc hfiles
  cases ha : a.sight? loc with
  | none =>
      cases hb : b.sight? loc with
      | none => rfl
      | some s =>
          cases s with
          | directory =>
              rcases h.made loc hb with hdir | hmem
              · rw [ha] at hdir
                cases hdir
              · exact absurd hmem hdirs
          | file content =>
              rw [FileSystem.content?_eq_some.mpr hb, FileSystem.content?, ha] at hcontent
              cases hcontent
  | some s =>
      cases s with
      | directory => exact h.kept loc ha
      | file content =>
          rw [FileSystem.content?_eq_some.mpr ha] at hcontent
          exact FileSystem.content?_eq_some.mp hcontent

/-- Nothing is taken away: a directory stays one, and where a file is, there is one after. -/
structure Keeps (before after : FileSystem) : Prop where
  directory : ∀ loc, before.sight? loc = some .directory → after.sight? loc = some .directory
  file : ∀ loc, (before.content? loc).isSome = true → (after.content? loc).isSome = true

theorem Keeps.refl (fs : FileSystem) : Keeps fs fs := ⟨fun _ h => h, fun _ h => h⟩

theorem Keeps.trans {a b c : FileSystem} (hab : Keeps a b) (hbc : Keeps b c) : Keeps a c :=
  ⟨fun loc h => hbc.directory loc (hab.directory loc h), fun loc h => hbc.file loc (hab.file loc h)⟩

theorem Touched.keeps {files dirs : Set Location} {a b : FileSystem} (h : Touched files dirs a b)
    (hfiles : ∀ loc ∈ files, (a.content? loc).isSome = true → (b.content? loc).isSome = true) :
    Keeps a b where
  directory := h.kept
  file loc hloc := by
    by_cases hmem : loc ∈ files
    · exact hfiles loc hmem hloc
    · rw [h.contents loc hmem]
      exact hloc

namespace FileSystem

/-! ## Where a path leads after a change -/

/-- The end of a path that could be reached but for its last name can be reached as soon as
something stands there. -/
theorem locate_of_locateParent {fs fs' : FileSystem} {p : Path} {loc : Location} {name : String}
    (hcwd : fs'.cwd = fs.cwd)
    (hkept : ∀ loc, fs.sight? loc = some .directory → fs'.sight? loc = some .directory)
    (h : fs.locateParent p = .ok (some (loc, name))) (hshort : name.utf8ByteSize ≤ nameLimit)
    (hdots : isDots name = false)
    (hend : fs'.sight? (loc ++ [name]) = some .directory ∨
      p.endsInSlash = false ∧ ∃ content, fs'.sight? (loc ++ [name]) = some (.file content)) :
    fs'.locate p = .ok (loc ++ [name]) := by
  obtain ⟨hcheck, hlast, hwalk, hdir⟩ := locateParent_eq_some.mp h
  refine locate_eq_ok.mpr ⟨hcheck, ?_, hend⟩
  rw [isDots, Bool.or_eq_false_iff] at hdots
  have hdot : name ≠ "." := by simpa using hdots.1
  have hdots : name ≠ ".." := by simpa using hdots.2
  have hsome : (fs'.sight? (loc ++ [name])).isSome := by
    rcases hend with hend | ⟨_, _, hend⟩ <;> rw [hend] <;> rfl
  rw [origin, hcwd, ← names_split hlast]
  refine walk_append_eq_ok.mpr ⟨loc, walk_mono hkept hwalk hdir, ?_⟩
  rw [walk_singleton]
  refine step_eq_ok.mpr ⟨hkept loc hdir, ?_, fun _ _ => ⟨hshort, hsome⟩⟩
  rw [Location.enter, if_neg hdot, if_neg hdots]

/-- A directory can be reached by a path as long as no directory goes. -/
theorem isDir_mono {fs fs' : FileSystem} {p : Path} (hcwd : fs'.cwd = fs.cwd)
    (hkept : ∀ loc, fs.sight? loc = some .directory → fs'.sight? loc = some .directory)
    (h : fs.isDir p = true) : fs'.isDir p = true := by
  obtain ⟨loc, hlocate, hdir⟩ := isDir_iff.mp h
  obtain ⟨hcheck, hwalk, _⟩ := locate_eq_ok.mp hlocate
  refine isDir_iff.mpr ⟨loc, locate_eq_ok.mpr ⟨hcheck, ?_, Or.inl (hkept loc hdir)⟩,
    hkept loc hdir⟩
  rw [origin, hcwd]
  exact walk_mono hkept hwalk hdir

/-- A file can be reached by a path as long as it is there and no directory goes. -/
theorem isFile_mono {fs fs' : FileSystem} {p : Path} (hcwd : fs'.cwd = fs.cwd)
    (hkept : ∀ loc, fs.sight? loc = some .directory → fs'.sight? loc = some .directory)
    (hfile : (fs'.content? (p.location fs.cwd)).isSome = true) (h : fs.isFile p = true) :
    fs'.isFile p = true := by
  obtain ⟨loc, name, content, hparent, hdots, hshort, hslash, hthere⟩ := isFile_iff_parent.mp h
  rw [location_of_locateParent hparent hdots] at hfile
  obtain ⟨content', hcontent'⟩ := Option.isSome_iff_exists.mp hfile
  have hthere' := content?_eq_some.mp hcontent'
  exact isFile_iff.mpr ⟨_, content', locate_of_locateParent hcwd hkept hparent hshort hdots
    (Or.inr ⟨hslash, content', hthere'⟩), hthere'⟩

/-- A file that can be reached by a path has its content at the place that the path names. -/
theorem content?_of_isFile {fs : FileSystem} {p : Path} (h : fs.isFile p = true) :
    (fs.content? (p.location fs.cwd)).isSome = true := by
  obtain ⟨loc, content, hlocate, hfile⟩ := isFile_iff.mp h
  rw [← location_of_locate hlocate, content?_eq_some.mpr hfile]
  rfl

/-! ## Making directories -/

theorem makeDir_eq_ok {fs fs' : FileSystem} {p : Path} :
    fs.makeDir p = .ok fs' ↔
      ∃ loc name, fs.locateParent p = .ok (some (loc, name)) ∧ isDots name = false ∧
        name.utf8ByteSize ≤ nameLimit ∧ fs.sight? (loc ++ [name]) = none ∧
        fs' = fs.put (loc ++ [name]) .empty := by
  rw [makeDir, bind_eq_ok]
  simp only [ isSome_entry?]
  constructor
  · rintro ⟨parent, hparent, h⟩
    split at h
    · cases h
    · next loc name =>
        split at h
        · cases h
        · next hdots =>
            split at h
            · cases h
            · next hlong =>
                split at h
                · cases h
                · next hfree =>
                    cases h
                    exact ⟨loc, name, hparent, by simpa using hdots, Nat.not_lt.mp hlong,
                      by simpa using hfree, rfl⟩
  · rintro ⟨loc, name, hparent, hdots, hshort, hfree, rfl⟩
    refine ⟨_, hparent, ?_⟩
    simp [hdots, hfree, Nat.not_lt.mpr hshort]

/-- A directory that is made stands where its path says, and is all that changes. -/
theorem sight?_makeDir {fs fs' : FileSystem} {p : Path} (h : fs.makeDir p = .ok fs') :
    fs'.cwd = fs.cwd ∧ fs.sight? (p.location fs.cwd) = none ∧
      fs'.sight? = Function.update fs.sight? (p.location fs.cwd) (some .directory) := by
  obtain ⟨loc, name, hparent, hdots, _, hfree, rfl⟩ := makeDir_eq_ok.mp h
  have hplace := location_of_locateParent hparent hdots
  have hdir := (locateParent_eq_some.mp hparent).2.2.2
  refine ⟨rfl, by rw [hplace, hfree], ?_⟩
  rw [hplace]
  exact sight?_put_leaf hdir (by rw [hfree]; simp) rfl

theorem touched_makeDir {fs fs' : FileSystem} {p : Path} (h : fs.makeDir p = .ok fs') :
    Touched ∅ {p.location fs.cwd} fs fs' := by
  obtain ⟨hcwd, hfree, hsight⟩ := sight?_makeDir h
  exact Touched.of_directory hcwd hfree hsight

theorem isDir_of_makeDir {fs fs' : FileSystem} {p : Path} (h : fs.makeDir p = .ok fs') :
    fs'.isDir p = true := by
  obtain ⟨loc, name, hparent, hdots, hshort, _, rfl⟩ := makeDir_eq_ok.mp h
  have htouched := touched_makeDir h
  have hthere : (fs.put (loc ++ [name]) Node.empty).sight? (loc ++ [name]) =
      some .directory := by
    rw [(sight?_makeDir h).2.2, location_of_locateParent hparent hdots, Function.update_self]
  exact isDir_iff.mpr ⟨_, locate_of_locateParent htouched.cwd htouched.kept hparent hshort hdots
    (Or.inl hthere), hthere⟩

/-- The places of directories that may be made with the directory at a path. -/
def wayTo (fs : FileSystem) (p : Path) : Set Location := {loc | p.Passes fs.cwd loc}

theorem location_mem_wayTo (fs : FileSystem) (p : Path) : p.location fs.cwd ∈ fs.wayTo p :=
  p.passes_location fs.cwd

/-- What is passed on the way to the components of a path is passed on the way to the path. -/
theorem wayTo_components (fs : FileSystem) (p : Path) :
    fs.wayTo (.ofComponents p.isAbsolute p.components) ⊆ fs.wayTo p := by
  intro loc hloc
  refine Path.Passes.of_leftOf [] ?_ ?_ hloc
  · rw [Path.origin, Path.origin, Path.isAbsolute_ofComponents _ p.pieces_components]
  · rw [Path.names_ofComponents _ p.pieces_components, List.append_nil]
    exact p.components_leftOf

theorem touched_remakeDir (fs : FileSystem) (p : Path) :
    Touched ∅ (fs.wayTo p) fs (fs.remakeDir p).2 := by
  rw [remakeDir]
  split
  · next fs' h =>
      refine (touched_makeDir h).mono (Set.Subset.refl _) ?_
      exact Set.singleton_subset_iff.mpr (location_mem_wayTo fs p)
  · exact Touched.refl fs

theorem isDir_of_remakeDir {fs fs' : FileSystem} {p : Path}
    (h : fs.remakeDir p = (.ok (), fs')) : fs'.isDir p = true := by
  rw [remakeDir] at h
  split at h
  · next hmade =>
      cases h
      exact isDir_of_makeDir hmade
  · by_cases hdir : fs.isDir p = true
    · rw [if_pos hdir] at h
      cases h
      exact hdir
    · rw [if_neg hdir] at h
      cases h

/-- One round of making a directory with its parents. -/
theorem makeDirsWithin_eq (depth : Nat) (p : Path) (fs : FileSystem) :
    makeDirsWithin depth p fs =
      if p.text = "" then (.ok (), fs)
      else
        match fs.makeDir p with
        | .ok fs => (.ok (), fs)
        | .error .notFound =>
          match depth, p.parent? with
          | depth + 1, some q =>
            match makeDirsWithin depth q fs with
            | (.ok (), fs) => fs.remakeDir p
            | (.error e, fs) => (.error e, fs)
          | _, _ => (.error .noTree, fs)
        | .error e => (if fs.isDir p then .ok () else .error e, fs) := by
  have hempty : (p.components.isEmpty && !p.isAbsolute) = true ↔ p.text = "" := by
    rw [Path.text_eq_empty_iff, Bool.and_eq_true, List.isEmpty_iff, Bool.not_eq_true']
  rw [makeDirsWithin.eq_def]
  exact if_congr hempty rfl rfl

/-! ## Making directories with their parents -/

/-- How a directory is made with its parents: what was made or found, or was in the way. -/
inductive Makes : Path → FileSystem → Except FileError Unit × FileSystem → Prop where
  | nothing {p : Path} {fs : FileSystem} : p.text = "" → Makes p fs (.ok (), fs)
  | made {p : Path} {fs fs' : FileSystem} :
      p.text ≠ "" → fs.makeDir p = .ok fs' → Makes p fs (.ok (), fs')
  | refused {p : Path} {fs : FileSystem} {e : FileError} :
      p.text ≠ "" → fs.makeDir p = .error e → e ≠ .notFound →
        Makes p fs (if fs.isDir p then .ok () else .error e, fs)
  | noParent {p : Path} {fs : FileSystem} :
      p.text ≠ "" → fs.makeDir p = .error .notFound → p.parent? = none →
        Makes p fs (.error .noTree, fs)
  | refusedAbove {p q : Path} {fs fs' : FileSystem} {e : FileError} :
      p.text ≠ "" → fs.makeDir p = .error .notFound → p.parent? = some q →
        Makes q fs (.error e, fs') → Makes p fs (.error e, fs')
  | madeAbove {p q : Path} {fs fs' : FileSystem} :
      p.text ≠ "" → fs.makeDir p = .error .notFound → p.parent? = some q →
        Makes q fs (.ok (), fs') → Makes p fs (fs'.remakeDir p)

theorem makes_makeDirsWithin {depth : Nat} :
    ∀ {p : Path} (fs : FileSystem), p.components.length ≤ depth →
      Makes p fs (makeDirsWithin depth p fs) := by
  -- the parent has one component less, so the depth lasts until there is no parent
  induction depth with
  | zero =>
      intro p fs hdepth
      have hnone := Path.parent?_eq_none.mpr (List.length_eq_zero_iff.mp (Nat.le_zero.mp hdepth))
      rw [makeDirsWithin_eq]
      split
      · next htext => exact .nothing htext
      · next htext =>
          cases hmade : fs.makeDir p with
          | ok fs' => exact .made htext hmade
          | error e =>
              cases e with
              | notFound => exact .noParent htext hmade hnone
              | _ => exact .refused htext hmade (by simp)
  | succ depth ih =>
      intro p fs hdepth
      rw [makeDirsWithin_eq]
      split
      · next htext => exact .nothing htext
      · next htext =>
          cases hmade : fs.makeDir p with
          | ok fs' => exact .made htext hmade
          | error e =>
              cases e with
              | notFound =>
                  cases hq : p.parent? with
                  | none => exact .noParent htext hmade hq
                  | some q =>
                      have hlength : q.components.length ≤ depth := by
                        rw [Path.components_parent hq, List.length_dropLast]
                        omega
                      have habove := ih fs hlength
                      simp only
                      split
                      · next fs' hfs' => exact .madeAbove htext hmade hq (hfs' ▸ habove)
                      · next e fs' hfs' => exact .refusedAbove htext hmade hq (hfs' ▸ habove)
              | _ => exact .refused htext hmade (by simp)

theorem makes_makeDirs (fs : FileSystem) (p : Path) : Makes p fs (fs.makeDirs p) :=
  makes_makeDirsWithin fs (Nat.le_refl _)

theorem Makes.touched {p : Path} {fs : FileSystem} {r : Except FileError Unit × FileSystem}
    (h : Makes p fs r) : Touched ∅ (fs.wayTo p) fs r.2 := by
  induction h with
  | nothing => exact Touched.refl _
  | @made p fs fs' _ hmade =>
      refine (touched_makeDir hmade).mono (Set.Subset.refl _) ?_
      exact Set.singleton_subset_iff.mpr (location_mem_wayTo fs p)
  | refused => exact Touched.refl _
  | noParent => exact Touched.refl _
  | refusedAbove _ _ hq _ ih => exact ih.mono (Set.Subset.refl _) fun _ h => h.of_parent hq
  | @madeAbove p q fs fs' _ _ hq _ ih =>
      -- the way to the parent is a part of the way to the directory
      have habove := ih.mono (Set.Subset.refl _)
        (show fs.wayTo q ⊆ fs.wayTo p from fun _ h => h.of_parent hq)
      refine habove.trans ?_
      have hagain := touched_remakeDir fs' p
      rwa [wayTo, habove.cwd] at hagain

/-- Making a directory with its parents makes directories on the way to it and nothing else. -/
theorem touched_makeDirs (fs : FileSystem) (p : Path) :
    Touched ∅ (fs.wayTo p) fs (fs.makeDirs p).2 :=
  (makes_makeDirs fs p).touched

theorem Makes.isDir {p : Path} {fs : FileSystem} {r : Except FileError Unit × FileSystem}
    (h : Makes p fs r) (hok : r.1 = .ok ()) : p.text = "" ∨ r.2.isDir p = true := by
  cases h with
  | nothing htext => exact Or.inl htext
  | made _ hmade => exact Or.inr (isDir_of_makeDir hmade)
  | refused _ _ _ =>
      right
      by_cases hdir : fs.isDir p = true
      · exact hdir
      · rw [if_neg hdir] at hok
        cases hok
  | noParent => cases hok
  | refusedAbove => cases hok
  | madeAbove => exact Or.inr (isDir_of_remakeDir (Prod.ext hok rfl))

/-- A directory that was made with its parents is there. -/
theorem isDir_of_makeDirs {fs fs' : FileSystem} {p : Path}
    (h : fs.makeDirs p = (.ok (), fs')) : p.text = "" ∨ fs'.isDir p = true := by
  have hmakes := makes_makeDirs fs p
  rw [h] at hmakes
  exact hmakes.isDir rfl

/-- Nothing is made at the end of a way that is open. -/
theorem makeDir_of_walk {fs : FileSystem} {p : Path} {loc : Location}
    (hcheck : checkPath p = .ok ()) (hwalk : fs.walk (fs.origin p) p.names = .ok loc) :
    fs.makeDir p = .error .exists := by
  rw [makeDir]
  cases hlast : p.names.getLast? with
  | none => simp [locateParent, hcheck, hlast, bind, Except.bind]
  | some name =>
      rw [← names_split hlast] at hwalk
      obtain ⟨parent, hfront, hstep⟩ := walk_append_eq_ok.mp hwalk
      rw [walk_singleton] at hstep
      obtain ⟨hparent, rfl, hplain⟩ := step_eq_ok.mp hstep
      rw [locateParent_eq_some.mpr ⟨hcheck, hlast, hfront, hparent⟩]
      simp only [bind, Except.bind, isSome_entry?]
      by_cases hdots : isDots name = true
      · rw [if_pos hdots]
      · simp only [isDots, Bool.or_eq_true, beq_iff_eq, not_or] at hdots
        obtain ⟨hshort, hsome⟩ := hplain hdots.1 hdots.2
        simp [isDots, hdots.1, hdots.2, Nat.not_lt.mpr hshort, hsome]

theorem makeDir_of_isDir {fs : FileSystem} {p : Path} (h : fs.isDir p = true) :
    fs.makeDir p = .error .exists := by
  obtain ⟨hcheck, hwalk, _⟩ := walk_of_isDir h
  exact makeDir_of_walk hcheck hwalk

/-- Where the directory is there already, nothing is made. -/
theorem makeDirs_of_isDir {fs : FileSystem} {p : Path} (h : fs.isDir p = true) :
    fs.makeDirs p = (.ok (), fs) := by
  rw [makeDirs, makeDirsWithin_eq, makeDir_of_isDir h]
  by_cases htext : p.text = ""
  · rw [if_pos htext]
  · rw [if_neg htext]
    simp [h]

/-! ## Removing and moving files -/

theorem removeFile_eq_ok {fs fs' : FileSystem} {p : Path} :
    fs.removeFile p = .ok fs' ↔
      ∃ loc name content, fs.locateParent p = .ok (some (loc, name)) ∧ isDots name = false ∧
        p.endsInSlash = false ∧ fs.sight? (loc ++ [name]) = some (.file content) ∧
        fs' = fs.remove (loc ++ [name]) := by
  rw [removeFile, bind_eq_ok]
  constructor
  · rintro ⟨parent, hparent, h⟩
    split at h
    · cases h
    · next loc name =>
        split at h
        · cases h
        · next hdots =>
            split at h
            · cases h
            · cases h
            · next content hfile =>
                split at h
                · cases h
                · next hslash =>
                    cases h
                    exact ⟨loc, name, content, hparent, by simpa using hdots, by simpa using hslash,
                      get?_eq_file.mpr hfile, rfl⟩
  · rintro ⟨loc, name, content, hparent, hdots, hslash, hfile, rfl⟩
    refine ⟨_, hparent, ?_⟩
    simp [ entry?, get?_eq_file.mp hfile, hdots, hslash]

/-- A file can be removed wherever its path leads to it. -/
theorem exists_removeFile {fs : FileSystem} {p : Path} (h : fs.isFile p = true) :
    ∃ fs', fs.removeFile p = .ok fs' := by
  obtain ⟨loc, name, content, hparent, hdots, _, hslash, hfile⟩ := isFile_iff_parent.mp h
  exact ⟨_, removeFile_eq_ok.mpr ⟨loc, name, content, hparent, hdots, hslash, hfile, rfl⟩⟩

/-- A file that is removed is all that changes. -/
theorem sight?_removeFile {fs fs' : FileSystem} {p : Path} (h : fs.removeFile p = .ok fs') :
    fs'.cwd = fs.cwd ∧ (∃ content, fs.sight? (p.location fs.cwd) = some (.file content)) ∧
      fs'.sight? = Function.update fs.sight? (p.location fs.cwd) none := by
  obtain ⟨loc, name, content, hparent, hdots, _, hfile, rfl⟩ := removeFile_eq_ok.mp h
  rw [location_of_locateParent hparent hdots]
  refine ⟨rfl, ⟨content, hfile⟩, sight?_remove_leaf ?_⟩
  rw [hfile]
  simp

theorem touched_removeFile {fs fs' : FileSystem} {p : Path} (h : fs.removeFile p = .ok fs') :
    Touched {p.location fs.cwd} ∅ fs fs' := by
  obtain ⟨hcwd, ⟨content, hfile⟩, hsight⟩ := sight?_removeFile h
  exact Touched.of_leaf hcwd (by rw [hfile]; simp) (by simp) hsight

theorem moveTo_eq_ok {fs fs' : FileSystem} {source : Location} {content : ByteArray}
    {p : Path} :
    fs.moveTo source content p = .ok fs' ↔
      ∃ loc name, fs.locateParent p = .ok (some (loc, name)) ∧ isDots name = false ∧
        name.utf8ByteSize ≤ nameLimit ∧ p.endsInSlash = false ∧
        fs.sight? (loc ++ [name]) ≠ some .directory ∧
        fs' = (fs.remove source).put (loc ++ [name]) (.file content) := by
  rw [moveTo]
  by_cases hnul : '\x00' ∈ p.text.toList
  · have hbad : ∀ {place}, fs.locateParent p ≠ .ok (some place) := by
      intro place h
      exact (checkPath_eq_ok.mp (locateParent_eq_some.mp h).1).1 hnul
    simp [hnul, hbad, bind, Except.bind]
  · simp only [List.contains_iff_mem, hnul, if_false]
    refine bind_eq_ok.trans ?_
    constructor
    · rintro ⟨parent, hparent, h⟩
      split at h
      · cases h
      · next loc name =>
          split at h
          · cases h
          · next hdots =>
              split at h
              · cases h
              · next hlong =>
                  split at h
                  · cases h
                  · next hslash =>
                      split at h
                      · cases h
                      · next hplace =>
                          cases h
                          refine ⟨loc, name, hparent, by simpa using hdots, Nat.not_lt.mp hlong,
                            by simpa using hslash, fun hdir => ?_, rfl⟩
                          obtain ⟨es, hes⟩ := get?_eq_dir.mp hdir
                          exact hplace es hes
    · rintro ⟨loc, name, hparent, hdots, hshort, hslash, hplace, rfl⟩
      refine ⟨_, hparent, ?_⟩
      simp only [hdots, hslash, Bool.false_eq_true, if_false, Nat.not_lt.mpr hshort]
      split
      · next es hes => exact absurd (get?_eq_dir.mpr ⟨es, hes⟩) hplace
      · rfl

/-- What becomes of a file that is moved into a directory that is there. -/
theorem moveTo_of_locateParent {fs : FileSystem} {p : Path} {loc : Location} {name : String}
    (source : Location) (content : ByteArray)
    (hparent : fs.locateParent p = .ok (some (loc, name))) (hdots : isDots name = false)
    (hslash : p.endsInSlash = false) :
    fs.moveTo source content p =
      if nameLimit < name.utf8ByteSize then .error .nameTooLong
      else if fs.sight? (loc ++ [name]) = some .directory then .error .isADirectory
      else .ok ((fs.remove source).put (loc ++ [name]) (.file content)) := by
  have hnul := (checkPath_eq_ok.mp (locateParent_eq_some.mp hparent).1).1
  rw [moveTo, hparent]
  simp only [List.contains_iff_mem, hnul, hdots, hslash, bind, Except.bind, if_false,
    Bool.false_eq_true, entry?]
  split
  · rfl
  · split
    · next es hes => rw [if_pos (get?_eq_dir.mpr ⟨es, hes⟩)]
    · next hplace =>
        rw [if_neg]
        intro hdir
        obtain ⟨es, hes⟩ := get?_eq_dir.mp hdir
        exact hplace es hes

end FileSystem

end Intake.Files
