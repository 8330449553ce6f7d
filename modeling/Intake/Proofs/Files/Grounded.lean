import Intake.Proofs.Files.Changes

/-!
# Paths with firm ground

A path that goes up only from directories that are there names a place that it leads to as
soon as there is a directory. All that is passed on the way is there already, or lies above
that place; so what later becomes of other places makes no difference.
-/

namespace Intake.Files

namespace Path

/-- The path with the components of another one alone. -/
def spare (p : Path) : Path := .ofComponents p.isAbsolute p.components

theorem names_spare (p : Path) : p.spare.names = p.components :=
  names_ofComponents _ p.pieces_components

theorem components_spare (p : Path) : p.spare.components = p.components :=
  components_ofComponents p.pieces_components p.spare_components

theorem isAbsolute_spare (p : Path) : p.spare.isAbsolute = p.isAbsolute :=
  isAbsolute_ofComponents _ p.pieces_components

theorem origin_spare (p : Path) (cwd : Location) : p.spare.origin cwd = p.origin cwd := by
  rw [origin, origin, isAbsolute_spare]

theorem prefix_enter {names : List String} (h : ".." ∉ names) :
    ∀ loc : Location, loc <+: names.foldl Location.enter loc := by
  induction names with
  | nil => exact fun loc => List.prefix_rfl
  | cons name rest ih =>
      intro loc
      have hrest := ih (fun hmem => h (List.mem_cons_of_mem _ hmem))
      have hname : name ≠ ".." := fun heq => h (heq ▸ List.mem_cons_self)
      rw [List.foldl_cons, Location.enter]
      by_cases hdot : name = "."
      · rw [if_pos hdot]
        exact hrest loc
      · rw [if_neg hdot, if_neg hname]
        exact (List.prefix_append loc [name]).trans (hrest _)

theorem location_spare (p : Path) (cwd : Location) : p.spare.location cwd = p.location cwd := by
  rw [location, location, names_spare, origin_spare, p.components_leftOf.enter]

end Path

namespace FileSystem

/-- Whether a name leads down. -/
def Plain (name : String) : Prop := name ≠ "." ∧ name ≠ ".."

/-- Whether all names of a path that lead down are short enough. -/
def Short (names : List String) : Prop :=
  ∀ name ∈ names, Plain name → name.utf8ByteSize ≤ nameLimit

/-- Where all places on the way are directories and no name is too long, names can be
followed. -/
theorem walk_of_passed {fs : FileSystem} {names : List String} :
    ∀ {loc : Location}, Short names →
      (∀ front back, names = front ++ back →
        fs.sight? (front.foldl Location.enter loc) = some .directory) →
      fs.walk loc names = .ok (names.foldl Location.enter loc) := by
  induction names with
  | nil => exact fun _ _ => rfl
  | cons name rest ih =>
      intro loc hshort hpassed
      have hnext := hpassed [name] rest rfl
      refine walk_cons_eq_ok.mpr ⟨loc.enter name, ?_, ?_⟩
      · refine step_eq_ok.mpr ⟨hpassed [] (name :: rest) rfl, rfl, fun hdot hdots => ?_⟩
        refine ⟨hshort name List.mem_cons_self ⟨hdot, hdots⟩, ?_⟩
        rw [List.foldl_cons, List.foldl_nil, Location.enter, if_neg hdot, if_neg hdots] at hnext
        rw [hnext]
        rfl
      · refine ih (fun n hn => hshort n (List.mem_cons_of_mem _ hn)) ?_
        intro front back hsplit
        exact hpassed (name :: front) back (by rw [hsplit]; rfl)

theorem short_of_walk {fs : FileSystem} {names : List String} :
    ∀ {loc loc' : Location}, fs.walk loc names = .ok loc' → Short names := by
  induction names with
  | nil =>
      intro _ _ _ n hn
      cases hn
  | cons name rest ih =>
      intro loc loc' h n hn hplain
      obtain ⟨next, hstep, hrest⟩ := walk_cons_eq_ok.mp h
      rcases List.mem_cons.mp hn with rfl | hn
      · exact ((step_eq_ok.mp hstep).2.2 hplain.1 hplain.2).1
      · exact ih hrest n hn hplain

/-- Names that lead nowhere can be left out. -/
theorem walk_filter {fs : FileSystem} {names : List String} :
    ∀ {loc loc' : Location}, fs.walk loc names = .ok loc' →
      fs.walk loc (names.filter (· ≠ ".")) = .ok loc' := by
  induction names with
  | nil => exact fun h => h
  | cons name rest ih =>
      intro loc loc' h
      obtain ⟨next, hstep, hrest⟩ := walk_cons_eq_ok.mp h
      by_cases hdot : name = "."
      · rw [List.filter_cons_of_neg (by simpa using hdot)]
        rw [(step_eq_ok.mp hstep).2.1, Location.enter, if_pos hdot] at hrest
        exact ih hrest
      · rw [List.filter_cons_of_pos (by simpa using hdot)]
        exact walk_cons_eq_ok.mpr ⟨next, hstep, ih hrest⟩

theorem walk_of_leftOf {fs : FileSystem} {names kept : List String} {loc loc' : Location}
    (hleft : Path.LeftOf names kept) (h : fs.walk loc names = .ok loc') :
    fs.walk loc kept = .ok loc' := by
  rcases hleft with rfl | ⟨rest, rfl, rfl⟩
  · exact walk_filter h
  · obtain ⟨next, hstep, hrest⟩ := walk_cons_eq_ok.mp h
    exact walk_cons_eq_ok.mpr ⟨next, hstep, walk_filter hrest⟩

theorem dir_of_walk {fs : FileSystem} {names : List String} {loc loc' : Location}
    (h : fs.walk loc names = .ok loc') (hend : fs.sight? loc' = some .directory) :
    fs.sight? loc = some .directory := by
  cases names with
  | nil =>
      cases h
      exact hend
  | cons name rest =>
      obtain ⟨next, hstep, _⟩ := walk_cons_eq_ok.mp h
      exact (step_eq_ok.mp hstep).1

/-- Names that lead nowhere can be put in on the way to a directory. -/
theorem walk_unfilter {fs : FileSystem} {names : List String} :
    ∀ {loc loc' : Location}, fs.walk loc (names.filter (· ≠ ".")) = .ok loc' →
      fs.sight? loc' = some .directory → fs.walk loc names = .ok loc' := by
  induction names with
  | nil => exact fun h _ => h
  | cons name rest ih =>
      intro loc loc' h hend
      by_cases hdot : name = "."
      · rw [List.filter_cons_of_neg (by simpa using hdot)] at h
        refine walk_cons_eq_ok.mpr ⟨loc, ?_, ih h hend⟩
        refine step_eq_ok.mpr ⟨dir_of_walk h hend, ?_, fun hne => absurd hdot hne⟩
        rw [Location.enter, if_pos hdot]
      · rw [List.filter_cons_of_pos (by simpa using hdot)] at h
        obtain ⟨next, hstep, hrest⟩ := walk_cons_eq_ok.mp h
        exact walk_cons_eq_ok.mpr ⟨next, hstep, ih hrest hend⟩

theorem walk_of_kept {fs : FileSystem} {names kept : List String} {loc loc' : Location}
    (hleft : Path.LeftOf names kept) (h : fs.walk loc kept = .ok loc')
    (hend : fs.sight? loc' = some .directory) : fs.walk loc names = .ok loc' := by
  rcases hleft with rfl | ⟨rest, rfl, rfl⟩
  · exact walk_unfilter h hend
  · obtain ⟨next, hstep, hrest⟩ := walk_cons_eq_ok.mp h
    exact walk_cons_eq_ok.mpr ⟨next, hstep, walk_unfilter hrest hend⟩

/-! ## Ways up -/

/-- Whether a path begins at a directory and goes up only from directories that are there. -/
structure Grounded (fs : FileSystem) (p : Path) : Prop where
  origin : fs.sight? (fs.origin p) = some .directory
  up : ∀ front back, p.names = front ++ ".." :: back →
    ∃ loc, fs.walk (fs.origin p) front = .ok loc ∧ fs.sight? loc = some .directory

/-- A path that does not go up is grounded where it begins at a directory. -/
theorem grounded_of_notMem {fs : FileSystem} {p : Path}
    (horigin : fs.sight? (fs.origin p) = some .directory) (h : ".." ∉ p.names) :
    fs.Grounded p where
  origin := horigin
  up front back hsplit := by
    rw [hsplit] at h
    exact absurd (List.mem_append_right front List.mem_cons_self) h

theorem grounded_spare {fs : FileSystem} {p : Path} (h : fs.Grounded p) :
    fs.Grounded p.spare where
  origin := by
    rw [FileSystem.origin, p.origin_spare]
    exact h.origin
  up front back hsplit := by
    rw [p.names_spare] at hsplit
    have hleft := p.components_leftOf
    rw [hsplit] at hleft
    obtain ⟨front', back', hnames, hfront, hback⟩ := hleft.append
    rw [List.filter_cons_of_pos (by simp), List.filter_eq_cons_iff] at hback
    obtain ⟨dots, rest, rfl, hdots, _, _⟩ := hback
    obtain ⟨loc, hwalk, hdir⟩ := h.up (front' ++ dots) rest (by rw [hnames, List.append_assoc])
    have hleft' : Path.LeftOf (front' ++ dots) front := by
      have hnone : dots.filter (· ≠ ".") = [] := List.filter_eq_nil_iff.mpr hdots
      rcases hfront with rfl | ⟨rest', rfl, rfl⟩
      · left
        rw [List.filter_append, hnone, List.append_nil]
      · right
        refine ⟨rest' ++ dots, rfl, ?_⟩
        rw [List.filter_append, hnone, List.append_nil]
    rw [FileSystem.origin, p.origin_spare]
    exact ⟨loc, walk_of_leftOf hleft' hwalk, hdir⟩

/-- What a grounded path passes is there, or above the place that the path names. -/
theorem dir_or_above_of_passes {fs : FileSystem} {p : Path} (h : fs.Grounded p)
    {loc : Location} (hpasses : p.Passes fs.cwd loc) :
    fs.sight? loc = some .directory ∨ loc <+: p.location fs.cwd := by
  obtain ⟨front, back, hnames, rfl⟩ := hpasses
  -- before a way up the path is open; after the last one it only goes down
  by_cases hup : ".." ∈ back
  · left
    obtain ⟨down, rest, rfl⟩ := List.append_of_mem hup
    obtain ⟨loc, hwalk, hdir⟩ := h.up (front ++ down) rest (by rw [hnames, List.append_assoc])
    obtain ⟨next, hfront, hdown⟩ := walk_append_eq_ok.mp hwalk
    rw [← origin, ← location_of_walk hfront]
    exact dir_of_walk hdown hdir
  · right
    rw [Path.location, hnames, List.foldl_append]
    exact Path.prefix_enter hup _

/-! ## Later trees -/

/-- A tree in which all directories of an earlier one are left. -/
structure Later (before after : FileSystem) : Prop where
  cwd : after.cwd = before.cwd
  kept : ∀ loc, before.sight? loc = some .directory → after.sight? loc = some .directory

theorem Later.refl (fs : FileSystem) : Later fs fs := ⟨rfl, fun _ h => h⟩

theorem Later.touched {files dirs : Set Location} {before mid after : FileSystem}
    (h : Later before mid) (htouched : Touched files dirs mid after) : Later before after :=
  ⟨htouched.cwd.trans h.cwd, fun loc hloc => htouched.kept loc (h.kept loc hloc)⟩

theorem Grounded.later {before after : FileSystem} {p : Path} (h : before.Grounded p)
    (hlater : Later before after) : after.Grounded p where
  origin := by
    rw [FileSystem.origin, hlater.cwd]
    exact hlater.kept _ h.origin
  up front back hsplit := by
    obtain ⟨loc, hwalk, hdir⟩ := h.up front back hsplit
    refine ⟨loc, ?_, hlater.kept loc hdir⟩
    rw [FileSystem.origin, hlater.cwd]
    exact walk_mono hlater.kept hwalk hdir

/-- What was seen at a place is seen there as long as no file changes there. -/
theorem Later.sight? {before after : FileSystem} (h : Later before after) {loc : Location}
    (hsome : (before.sight? loc).isSome = true)
    (hcontent : after.content? loc = before.content? loc) :
    after.sight? loc = before.sight? loc := by
  cases hbefore : before.sight? loc with
  | none =>
      rw [hbefore] at hsome
      cases hsome
  | some s =>
      cases s with
      | directory => exact h.kept loc hbefore
      | file content =>
          rw [content?_eq_some.mpr hbefore] at hcontent
          exact content?_eq_some.mp hcontent

/-- A path leads where it led as long as no file changes there. -/
theorem Later.locate {before after : FileSystem} {p : Path} {loc : Location}
    (h : Later before after) (hlocate : before.locate p = .ok loc)
    (hcontent : after.content? loc = before.content? loc) : after.locate p = .ok loc := by
  have hloc := location_of_locate hlocate
  have hthere : ∃ loc', after.locate p = .ok loc' := by
    rcases (locate_eq_ok.mp hlocate).2.2 with hdir | ⟨_, content, hfile⟩
    · have hisDir := isDir_mono h.cwd h.kept (isDir_iff.mpr ⟨loc, hlocate, hdir⟩)
      obtain ⟨loc', hlocate', _⟩ := isDir_iff.mp hisDir
      exact ⟨loc', hlocate'⟩
    · have hsome : (after.content? (p.location before.cwd)).isSome = true := by
        rw [← hloc, hcontent, content?_eq_some.mpr hfile]
        rfl
      have hisFile := isFile_mono h.cwd h.kept hsome (isFile_iff.mpr ⟨loc, content, hlocate, hfile⟩)
      obtain ⟨loc', _, hlocate', _⟩ := isFile_iff.mp hisFile
      exact ⟨loc', hlocate'⟩
  obtain ⟨loc', hlocate'⟩ := hthere
  have hloc' := location_of_locate hlocate'
  rw [h.cwd, ← hloc] at hloc'
  rw [← hloc']
  exact hlocate'

/-- What was read by a path is read by it as long as it does not change. -/
theorem Later.read {before after : FileSystem} {p : Path} {content : ByteArray}
    (h : Later before after) (hread : before.read p = .ok content)
    (hcontent : after.content? (p.location before.cwd) = before.content? (p.location before.cwd)) :
    after.read p = .ok content := by
  obtain ⟨loc, hlocate, hfile⟩ := read_eq_ok.mp hread
  rw [← location_of_locate hlocate] at hcontent
  have hfile' : after.content? loc = some content := by
    rw [hcontent]
    exact content?_eq_some.mpr hfile
  exact read_eq_ok.mpr ⟨loc, h.locate hlocate hcontent, content?_eq_some.mp hfile'⟩

/-! ## Files within grounded directories -/

variable {fs fs' : FileSystem} {p : Path} {name : String}

theorem sight?_of_prefix {loc loc' : Location} (h : loc <+: loc')
    (hdir : fs.sight? loc' = some .directory) : fs.sight? loc = some .directory := by
  obtain ⟨rest, rfl⟩ := h
  cases rest with
  | nil => rwa [List.append_nil] at hdir
  | cons name rest => exact sight?_above (by rw [hdir]; rfl)

/-- The way along a grounded path is open as soon as there is a directory at its end. -/
theorem walk_of_grounded (h : fs.Grounded p) (hshort : Short p.names)
    (hdir : fs.sight? (p.location fs.cwd) = some .directory) :
    fs.walk (fs.origin p) p.names = .ok (p.location fs.cwd) := by
  refine walk_of_passed hshort ?_
  intro front back hsplit
  rcases dir_or_above_of_passes h ⟨front, back, hsplit, rfl⟩ with hthere | habove
  · exact hthere
  · exact sight?_of_prefix habove hdir

theorem locate_join (h : fs.Grounded p) (hname : Path.OrdinaryName name) {loc : Location} :
    fs.locate (p.join name) = .ok loc ↔
      checkPath (p.join name) = .ok () ∧ Short (p.names ++ [name]) ∧
        loc = (p.join name).location fs.cwd ∧ (fs.sight? loc).isSome = true := by
  constructor
  · intro hlocate
    obtain ⟨hcheck, hwalk, hend⟩ := locate_eq_ok.mp hlocate
    refine ⟨hcheck, ?_, location_of_locate hlocate, ?_⟩
    · rw [← Path.names_join p hname]
      exact short_of_walk hwalk
    · rcases hend with hdir | ⟨_, _, hfile⟩
      · rw [hdir]
        rfl
      · rw [hfile]
        rfl
  · rintro ⟨hcheck, hshort, rfl, hsome⟩
    refine locate_eq_ok.mpr ⟨hcheck, ?_, ?_⟩
    · rw [Path.location_join p fs.cwd hname] at hsome ⊢
      have hdir := @sight?_above fs (p.location fs.cwd) name [] hsome
      rw [Path.names_join p hname, origin, Path.origin_join p fs.cwd hname]
      refine walk_append_eq_ok.mpr ⟨p.location fs.cwd, ?_, ?_⟩
      · exact walk_of_grounded h (fun n hn => hshort n (List.mem_append_left _ hn)) hdir
      · rw [walk_singleton]
        refine step_eq_ok.mpr ⟨hdir, (Path.enter_of_ordinary _ hname).symm, fun hdot hdots => ?_⟩
        exact ⟨hshort name (List.mem_append_right _ List.mem_cons_self) ⟨hdot, hdots⟩, hsome⟩
    · obtain ⟨s, hs⟩ := Option.isSome_iff_exists.mp hsome
      cases s with
      | directory => exact Or.inl hs
      | file content => exact Or.inr ⟨Path.endsInSlash_join p hname, content, hs⟩

/-- What is read within a grounded directory hangs on the content there alone. -/
theorem read_join (h : fs.Grounded p) (hname : Path.OrdinaryName name) {content : ByteArray} :
    fs.read (p.join name) = .ok content ↔
      checkPath (p.join name) = .ok () ∧ Short (p.names ++ [name]) ∧
        fs.content? ((p.join name).location fs.cwd) = some content := by
  rw [read_eq_ok]
  constructor
  · rintro ⟨loc, hlocate, hfile⟩
    obtain ⟨hcheck, hshort, rfl, _⟩ := (locate_join h hname).mp hlocate
    exact ⟨hcheck, hshort, content?_eq_some.mpr hfile⟩
  · rintro ⟨hcheck, hshort, hcontent⟩
    have hfile := content?_eq_some.mp hcontent
    refine ⟨_, (locate_join h hname).mpr ⟨hcheck, hshort, rfl, ?_⟩, hfile⟩
    rw [hfile]
    rfl

theorem exists?_iff : fs.exists? p = true ↔ ∃ loc, fs.locate p = .ok loc := by
  rw [exists?, status?]
  cases hlocate : fs.locate p with
  | error e => simp
  | ok loc =>
      have hend := (locate_eq_ok.mp hlocate).2.2
      simp only [Except.ok.injEq, exists_eq', iff_true]
      rcases hend with hdir | ⟨_, _, hfile⟩
      · obtain ⟨es, hes⟩ := get?_eq_dir.mp hdir
        rw [hes]
        rfl
      · rw [get?_eq_file.mp hfile]
        rfl

section Congruence

variable (h : fs.Grounded p) (h' : fs'.Grounded p) (hname : Path.OrdinaryName name)
  (hcwd : fs'.cwd = fs.cwd)
  (hsight : fs'.sight? ((p.join name).location fs.cwd) =
    fs.sight? ((p.join name).location fs.cwd))

include h h' hname hcwd hsight

theorem locate_join_congr {loc : Location} :
    fs'.locate (p.join name) = .ok loc ↔ fs.locate (p.join name) = .ok loc := by
  rw [locate_join h hname, locate_join h' hname, hcwd]
  constructor
  · rintro ⟨hcheck, hshort, hloc, hsome⟩
    rw [hloc, hsight, ← hloc] at hsome
    exact ⟨hcheck, hshort, hloc, hsome⟩
  · rintro ⟨hcheck, hshort, hloc, hsome⟩
    rw [hloc, ← hsight, ← hloc] at hsome
    exact ⟨hcheck, hshort, hloc, hsome⟩

/-- Whether there is something within a grounded directory hangs on its place alone. -/
theorem exists?_join_congr : fs'.exists? (p.join name) = fs.exists? (p.join name) := by
  rw [Bool.eq_iff_iff, exists?_iff, exists?_iff]
  exact exists_congr fun loc => locate_join_congr h h' hname hcwd hsight

/-- Whether there is a file within a grounded directory hangs on its place alone. -/
theorem isFile_join_grounded : fs'.isFile (p.join name) = fs.isFile (p.join name) := by
  rw [Bool.eq_iff_iff, isFile_iff, isFile_iff]
  refine exists_congr fun loc => exists_congr fun content => ?_
  rw [locate_join_congr h h' hname hcwd hsight]
  refine and_congr_right fun hlocate => ?_
  rw [location_of_locate hlocate, hsight]

end Congruence

/-- A file within a grounded directory can be removed if the way to the directory is open. -/
theorem exists_removeFile_join (h : fs.Grounded p) (hname : Path.OrdinaryName name) :
    (∃ fs', fs.removeFile (p.join name) = .ok fs') ↔
      checkPath (p.join name) = .ok () ∧ Short p.names ∧
        (fs.content? ((p.join name).location fs.cwd)).isSome = true := by
  have hnames := Path.names_join p hname
  constructor
  · rintro ⟨fs', hremove⟩
    obtain ⟨_, ⟨content, hfile⟩, _⟩ := sight?_removeFile hremove
    obtain ⟨loc, last, _, hparent, _⟩ := removeFile_eq_ok.mp hremove
    obtain ⟨hcheck, _, hwalk, _⟩ := locateParent_eq_some.mp hparent
    rw [hnames, List.dropLast_concat] at hwalk
    refine ⟨hcheck, short_of_walk hwalk, ?_⟩
    rw [content?_eq_some.mpr hfile]
    rfl
  · rintro ⟨hcheck, hshort, hsome⟩
    obtain ⟨content, hcontent⟩ := Option.isSome_iff_exists.mp hsome
    rw [Path.location_join p fs.cwd hname, content?_eq_some] at hcontent
    have hdir := @sight?_above fs (p.location fs.cwd) name [] (by rw [hcontent]; rfl)
    refine ⟨_, removeFile_eq_ok.mpr ⟨p.location fs.cwd, name, content, ?_, hname.leadsOn,
      Path.endsInSlash_join p hname, hcontent, rfl⟩⟩
    refine locateParent_eq_some.mpr ⟨hcheck, ?_, ?_, hdir⟩
    · rw [hnames, List.getLast?_concat]
    · rw [hnames, List.dropLast_concat, origin, Path.origin_join p fs.cwd hname]
      exact walk_of_grounded h hshort hdir

end FileSystem

end Intake.Files
