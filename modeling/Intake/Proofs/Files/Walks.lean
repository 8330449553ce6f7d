import Intake.Proofs.Attempts
import Intake.Proofs.Files.Paths
import Intake.Proofs.Files.Sights

/-!
# Following paths

A path that can be followed leads to the location that it names, and all that is passed
on the way is a directory. So a tree in which the same directories stand is followed in
the same way, whatever else has changed in it.
-/

namespace Intake.Files.FileSystem

theorem step_eq (fs : FileSystem) (loc : Location) (name : String) :
    fs.step loc name =
      match fs.sight? loc with
      | none => .error .notFound
      | some (.file _) => .error .notADirectory
      | some .directory =>
        if name = "." then .ok loc
        else if name = ".." then .ok loc.dropLast
        else if nameLimit < name.utf8ByteSize then .error .nameTooLong
        else if (fs.sight? (loc ++ [name])).isSome then .ok (loc ++ [name])
        else .error .notFound := by
  rw [step]
  cases h : fs.get? loc with
  | none => rw [get?_eq_none.mpr h]
  | some n =>
      cases n with
      | file content => rw [get?_eq_file.mpr h]
      | dir es =>
          rw [get?_eq_dir.mpr ⟨es, h⟩, ← isSome_entry?, entry?, get?, Node.get?_append]
          rw [get?] at h
          simp only [h, Option.bind_some, Node.get?_cons, Node.entries]
          cases es.lookup name <;> rfl

/-- A name that can be followed leads from a directory to the location that it names. -/
theorem step_eq_ok {fs : FileSystem} {loc loc' : Location} {name : String} :
    fs.step loc name = .ok loc' ↔
      fs.sight? loc = some .directory ∧ loc' = loc.enter name ∧
        (name ≠ "." → name ≠ ".." →
          name.utf8ByteSize ≤ nameLimit ∧ (fs.sight? (loc ++ [name])).isSome) := by
  rw [step_eq, Location.enter]
  cases h : fs.sight? loc with
  | none => simp
  | some s =>
      cases s with
      | file content => simp
      | directory =>
          simp only [true_and]
          by_cases hdot : name = "."
          · rw [if_pos hdot, if_pos hdot]
            constructor
            · intro h
              exact ⟨(Except.ok.inj h).symm, fun hne => absurd hdot hne⟩
            · rintro ⟨rfl, _⟩
              rfl
          · rw [if_neg hdot, if_neg hdot]
            by_cases hdots : name = ".."
            · rw [if_pos hdots, if_pos hdots]
              constructor
              · intro h
                exact ⟨(Except.ok.inj h).symm, fun _ hne => absurd hdots hne⟩
              · rintro ⟨rfl, _⟩
                rfl
            · rw [if_neg hdots, if_neg hdots]
              constructor
              · intro h
                split at h
                · cases h
                · next hlong =>
                    split at h
                    · next hthere =>
                        exact ⟨(Except.ok.inj h).symm, fun _ _ => ⟨Nat.not_lt.mp hlong, hthere⟩⟩
                    · cases h
              · rintro ⟨rfl, hplain⟩
                obtain ⟨hshort, hthere⟩ := hplain hdot hdots
                rw [if_neg (Nat.not_lt.mpr hshort), if_pos hthere]

theorem walk_cons_eq_ok {fs : FileSystem} {loc loc' : Location} {name : String}
    {rest : List String} :
    fs.walk loc (name :: rest) = .ok loc' ↔
      ∃ next, fs.step loc name = .ok next ∧ fs.walk next rest = .ok loc' := bind_eq_ok

theorem walk_append (fs : FileSystem) (loc : Location) (front back : List String) :
    fs.walk loc (front ++ back) = (fs.walk loc front).bind (fs.walk · back) := by
  induction front generalizing loc with
  | nil => rfl
  | cons name front ih =>
      rw [List.cons_append, walk, walk]
      cases fs.step loc name with
      | error e => rfl
      | ok next => exact ih next

theorem walk_append_eq_ok {fs : FileSystem} {loc loc' : Location} {front back : List String} :
    fs.walk loc (front ++ back) = .ok loc' ↔
      ∃ next, fs.walk loc front = .ok next ∧ fs.walk next back = .ok loc' := by
  rw [walk_append]
  exact bind_eq_ok

theorem walk_singleton (fs : FileSystem) (loc : Location) (name : String) :
    fs.walk loc [name] = fs.step loc name := by
  rw [walk]
  cases fs.step loc name <;> rfl

/-- Names that can be followed lead to the location that they name. -/
theorem location_of_walk {fs : FileSystem} {names : List String} :
    ∀ {loc loc' : Location}, fs.walk loc names = .ok loc' →
      loc' = names.foldl Location.enter loc := by
  induction names with
  | nil =>
      intro loc loc' h
      cases h
      rfl
  | cons name rest ih =>
      intro loc loc' h
      obtain ⟨next, hstep, hrest⟩ := walk_cons_eq_ok.mp h
      rw [List.foldl_cons, ← (step_eq_ok.mp hstep).2.1]
      exact ih hrest

/-- Something stands at the end of a way that begins somewhere. -/
theorem isSome_of_walk {fs : FileSystem} {names : List String} :
    ∀ {loc loc' : Location}, (fs.sight? loc).isSome → fs.walk loc names = .ok loc' →
      (fs.sight? loc').isSome := by
  induction names with
  | nil =>
      intro loc loc' hloc h
      cases h
      exact hloc
  | cons name rest ih =>
      intro loc loc' hloc h
      obtain ⟨next, hstep, hrest⟩ := walk_cons_eq_ok.mp h
      obtain ⟨hdir, rfl, hplain⟩ := step_eq_ok.mp hstep
      refine ih ?_ hrest
      rw [Location.enter]
      split
      · exact hloc
      · next hdot =>
          split
          · by_cases hroot : loc = []
            · rw [hroot] at hloc ⊢
              exact hloc
            · have hsplit := List.dropLast_concat_getLast hroot
              rw [← hsplit] at hloc
              rw [sight?_above hloc]
              rfl
          · next hdots => exact (hplain hdot hdots).2

/-- A way that ends at a directory stays open as long as the directories stay. -/
theorem walk_mono {fs fs' : FileSystem} {names : List String}
    (hdirs : ∀ loc, fs.sight? loc = some .directory → fs'.sight? loc = some .directory) :
    ∀ {loc loc' : Location}, fs.walk loc names = .ok loc' →
      fs.sight? loc' = some .directory → fs'.walk loc names = .ok loc' := by
  induction names with
  | nil =>
      intro loc loc' h _
      exact h
  | cons name rest ih =>
      intro loc loc' h hend
      obtain ⟨next, hstep, hrest⟩ := walk_cons_eq_ok.mp h
      refine walk_cons_eq_ok.mpr ⟨next, ?_, ih hrest hend⟩
      -- what follows, or the end, makes the next place a directory, which stays
      have hnext : fs.sight? next = some .directory := by
        cases rest with
        | nil =>
            cases hrest
            exact hend
        | cons name' rest =>
            obtain ⟨_, hstep', _⟩ := walk_cons_eq_ok.mp hrest
            exact (step_eq_ok.mp hstep').1
      obtain ⟨hdir, heq, hplain⟩ := step_eq_ok.mp hstep
      refine step_eq_ok.mpr ⟨hdirs loc hdir, heq, ?_⟩
      intro hdot hdots
      have hplace : next = loc ++ [name] := by
        rw [heq, Location.enter, if_neg hdot, if_neg hdots]
      refine ⟨(hplain hdot hdots).1, ?_⟩
      rw [← hplace, hdirs next hnext]
      rfl

/-! ## Looking at the end of a path -/

theorem checkPath_eq_ok {p : Path} :
    checkPath p = .ok () ↔ '\x00' ∉ p.text.toList ∧ p.text ≠ "" := by
  rw [checkPath]
  by_cases hnul : '\x00' ∈ p.text.toList
  · simp [hnul]
  · by_cases hempty : p.text = "" <;> simp [hnul, hempty]

theorem locate_eq_ok {fs : FileSystem} {p : Path} {loc : Location} :
    fs.locate p = .ok loc ↔
      checkPath p = .ok () ∧ fs.walk (fs.origin p) p.names = .ok loc ∧
        (fs.sight? loc = some .directory ∨
          p.endsInSlash = false ∧ ∃ content, fs.sight? loc = some (.file content)) := by
  rw [locate]
  constructor
  · intro h
    obtain ⟨_, hcheck, h⟩ := bind_eq_ok.mp h
    obtain ⟨loc₀, hwalk, h⟩ := bind_eq_ok.mp h
    split at h
    · cases h
    · next n hget =>
        split at h
        · cases h
        · next hplain =>
            cases h
            refine ⟨hcheck, hwalk, ?_⟩
            cases n with
            | dir es => exact Or.inl (get?_eq_dir.mpr ⟨es, hget⟩)
            | file content =>
                have hslash : p.endsInSlash = false := by
                  simpa [Node.isFile, Node.isDir] using hplain
                exact Or.inr ⟨hslash, content, get?_eq_file.mpr hget⟩
  · rintro ⟨hcheck, hwalk, hsight⟩
    refine bind_eq_ok.mpr ⟨(), hcheck, bind_eq_ok.mpr ⟨loc, hwalk, ?_⟩⟩
    rcases hsight with hdir | ⟨hslash, content, hfile⟩
    · obtain ⟨es, hget⟩ := get?_eq_dir.mp hdir
      simp [hget, Node.isFile, Node.isDir]
    · simp [get?_eq_file.mp hfile, hslash]

theorem location_of_locate {fs : FileSystem} {p : Path} {loc : Location}
    (h : fs.locate p = .ok loc) : loc = p.location fs.cwd :=
  location_of_walk (locate_eq_ok.mp h).2.1

theorem isFile_iff {fs : FileSystem} {p : Path} :
    fs.isFile p = true ↔
      ∃ loc content, fs.locate p = .ok loc ∧ fs.sight? loc = some (.file content) := by
  rw [isFile, status?]
  cases fs.locate p with
  | error e => simp
  | ok loc =>
      simp only [Option.any_eq_true, Except.ok.injEq, get?_eq_file]
      constructor
      · rintro ⟨n, hn, hfile⟩
        cases n with
        | dir es => cases hfile
        | file content => exact ⟨loc, content, rfl, hn⟩
      · rintro ⟨_, content, rfl, h⟩
        exact ⟨_, h, rfl⟩

theorem isDir_iff {fs : FileSystem} {p : Path} :
    fs.isDir p = true ↔ ∃ loc, fs.locate p = .ok loc ∧ fs.sight? loc = some .directory := by
  rw [isDir, status?]
  cases fs.locate p with
  | error e => simp
  | ok loc =>
      simp only [Option.any_eq_true, Except.ok.injEq, exists_eq_left', get?_eq_dir]
      constructor
      · rintro ⟨n, hn, hdir⟩
        cases n with
        | file content => cases hdir
        | dir es => exact ⟨es, hn⟩
      · rintro ⟨es, h⟩
        exact ⟨_, h, rfl⟩

theorem read_eq_ok {fs : FileSystem} {p : Path} {content : ByteArray} :
    fs.read p = .ok content ↔
      ∃ loc, fs.locate p = .ok loc ∧ fs.sight? loc = some (.file content) := by
  rw [read, bind_eq_ok]
  refine exists_congr fun loc => and_congr_right fun _ => ?_
  rw [get?_eq_file]
  split <;> simp_all

theorem isDir_of_walk {fs : FileSystem} {p : Path} {loc : Location}
    (hcheck : checkPath p = .ok ()) (hwalk : fs.walk (fs.origin p) p.names = .ok loc)
    (hdir : fs.sight? loc = some .directory) : fs.isDir p = true :=
  isDir_iff.mpr ⟨loc, locate_eq_ok.mpr ⟨hcheck, hwalk, Or.inl hdir⟩, hdir⟩

/-- The way to a directory is open and leads to the place that the path names. -/
theorem walk_of_isDir {fs : FileSystem} {p : Path} (h : fs.isDir p = true) :
    checkPath p = .ok () ∧ fs.walk (fs.origin p) p.names = .ok (p.location fs.cwd) ∧
      fs.sight? (p.location fs.cwd) = some .directory := by
  obtain ⟨loc, hlocate, hdir⟩ := isDir_iff.mp h
  rw [← location_of_locate hlocate]
  obtain ⟨hcheck, hwalk, _⟩ := locate_eq_ok.mp hlocate
  exact ⟨hcheck, hwalk, hdir⟩

/-- The content of a file is read wherever its path leads to it. -/
theorem read_of_isFile {fs : FileSystem} {p : Path} {content : ByteArray}
    (h : fs.isFile p = true) (hcontent : fs.content? (p.location fs.cwd) = some content) :
    fs.read p = .ok content := by
  obtain ⟨loc, _, hlocate, _⟩ := isFile_iff.mp h
  rw [← location_of_locate hlocate] at hcontent
  exact read_eq_ok.mpr ⟨loc, hlocate, content?_eq_some.mp hcontent⟩

theorem content?_of_read {fs : FileSystem} {p : Path} {content : ByteArray}
    (h : fs.read p = .ok content) : fs.content? (p.location fs.cwd) = some content := by
  obtain ⟨loc, hlocate, hsight⟩ := read_eq_ok.mp h
  rw [← location_of_locate hlocate]
  exact content?_eq_some.mpr hsight

theorem locateParent_eq_some {fs : FileSystem} {p : Path} {loc : Location} {name : String} :
    fs.locateParent p = .ok (some (loc, name)) ↔
      checkPath p = .ok () ∧ p.names.getLast? = some name ∧
        fs.walk (fs.origin p) p.names.dropLast = .ok loc ∧
        fs.sight? loc = some .directory := by
  rw [locateParent]
  constructor
  · intro h
    obtain ⟨_, hcheck, h⟩ := bind_eq_ok.mp h
    split at h
    · cases h
    · next last hlast =>
        obtain ⟨loc₀, hwalk, h⟩ := bind_eq_ok.mp h
        split at h
        · next es hget =>
            cases h
            exact ⟨hcheck, hlast, hwalk, get?_eq_dir.mpr ⟨es, hget⟩⟩
        · cases h
        · cases h
  · rintro ⟨hcheck, hlast, hwalk, hdir⟩
    obtain ⟨es, hget⟩ := get?_eq_dir.mp hdir
    refine bind_eq_ok.mpr ⟨(), hcheck, ?_⟩
    rw [hlast]
    exact bind_eq_ok.mpr ⟨loc, hwalk, by rw [hget]⟩

theorem names_split {p : Path} {name : String} (h : p.names.getLast? = some name) :
    p.names.dropLast ++ [name] = p.names := by
  obtain ⟨front, hfront⟩ := List.getLast?_eq_some_iff.mp h
  rw [hfront, List.dropLast_concat]

/-- The last name of a path stands in the directory that the names before it lead to. -/
theorem location_of_locateParent {fs : FileSystem} {p : Path} {loc : Location}
    {name : String} (h : fs.locateParent p = .ok (some (loc, name)))
    (hdots : isDots name = false) : p.location fs.cwd = loc ++ [name] := by
  obtain ⟨_, hlast, hwalk, _⟩ := locateParent_eq_some.mp h
  rw [isDots, Bool.or_eq_false_iff] at hdots
  rw [Path.location, ← names_split hlast, List.foldl_append, List.foldl_cons, List.foldl_nil,
    ← origin, ← location_of_walk hwalk, Location.enter, if_neg (by simpa using hdots.1),
    if_neg (by simpa using hdots.2)]

/-- Above a directory there are directories up to the root. -/
theorem sight?_dropLast {fs : FileSystem} {loc : Location}
    (h : fs.sight? loc = some .directory) : fs.sight? loc.dropLast = some .directory := by
  by_cases hroot : loc = []
  · rw [hroot] at h ⊢
    exact h
  · have hsplit := List.dropLast_concat_getLast hroot
    rw [← hsplit] at h
    exact @sight?_above fs loc.dropLast (loc.getLast hroot) [] (by rw [h]; rfl)

/-- A path leads to a file only by a name of its own in the directory before it. -/
theorem isFile_iff_parent {fs : FileSystem} {p : Path} :
    fs.isFile p = true ↔
      ∃ loc name content, fs.locateParent p = .ok (some (loc, name)) ∧ isDots name = false ∧
        name.utf8ByteSize ≤ nameLimit ∧ p.endsInSlash = false ∧
        fs.sight? (loc ++ [name]) = some (.file content) := by
  constructor
  · intro h
    obtain ⟨loc', content, hlocate, hfile⟩ := isFile_iff.mp h
    obtain ⟨hcheck, hwalk, hend⟩ := locate_eq_ok.mp hlocate
    have hslash : p.endsInSlash = false := by
      rcases hend with hdir | ⟨hslash, _⟩
      · rw [hfile] at hdir
        cases hdir
      · exact hslash
    cases hlast : p.names.getLast? with
    | none =>
        have hnames := List.getLast?_eq_none_iff.mp hlast
        rw [Path.endsInSlash_of_names_nil hnames (checkPath_eq_ok.mp hcheck).2] at hslash
        cases hslash
    | some name =>
        rw [← names_split hlast] at hwalk
        obtain ⟨loc, hfront, hstep⟩ := walk_append_eq_ok.mp hwalk
        rw [walk_singleton] at hstep
        obtain ⟨hdir, rfl, hplain⟩ := step_eq_ok.mp hstep
        -- `.` and `..` lead to directories, so the last name leads down
        rw [Location.enter] at hfile
        by_cases hdot : name = "."
        · rw [if_pos hdot, hdir] at hfile
          cases hfile
        · rw [if_neg hdot] at hfile
          by_cases hdots : name = ".."
          · rw [if_pos hdots, sight?_dropLast hdir] at hfile
            cases hfile
          · rw [if_neg hdots] at hfile
            refine ⟨loc, name, content, ?_, by simp [isDots, hdot, hdots],
              (hplain hdot hdots).1, hslash, hfile⟩
            exact locateParent_eq_some.mpr ⟨hcheck, hlast, hfront, hdir⟩
  · rintro ⟨loc, name, content, hparent, hdots, hshort, hslash, hfile⟩
    obtain ⟨hcheck, hlast, hwalk, hdir⟩ := locateParent_eq_some.mp hparent
    rw [isDots, Bool.or_eq_false_iff] at hdots
    have hdot : name ≠ "." := by simpa using hdots.1
    have hdots : name ≠ ".." := by simpa using hdots.2
    refine isFile_iff.mpr ⟨loc ++ [name], content, ?_, hfile⟩
    refine locate_eq_ok.mpr ⟨hcheck, ?_, Or.inr ⟨hslash, content, hfile⟩⟩
    rw [← names_split hlast]
    refine walk_append_eq_ok.mpr ⟨loc, hwalk, ?_⟩
    rw [walk_singleton]
    refine step_eq_ok.mpr ⟨hdir, ?_, fun _ _ => ⟨hshort, by rw [hfile]; rfl⟩⟩
    rw [Location.enter, if_neg hdot, if_neg hdots]

/-! ## Files within a directory -/

/-- Whether a directory is at the end of a path, or the path is empty. -/
def Ready (fs : FileSystem) (p : Path) : Prop := p.text = "" ∨ fs.isDir p = true

theorem walk_of_ready {fs : FileSystem} {p : Path} (h : fs.Ready p) :
    fs.walk (fs.origin p) p.names = .ok (p.location fs.cwd) := by
  rcases h with hempty | hdir
  · have hnames : p.names = [] := by rw [Path.names_eq, hempty]; rfl
    rw [Path.location, hnames]
    rfl
  · exact (walk_of_isDir hdir).2.1

/-- A single name with which a path ends, and which leads on, is an ordinary one. -/
theorem ordinaryName_of_locateParent {fs : FileSystem} {p : Path} {name last : String}
    {loc : Location} (hslash : '/' ∉ name.toList)
    (hparent : fs.locateParent (p.join name) = .ok (some (loc, last)))
    (hdots : isDots last = false) (hend : (p.join name).endsInSlash = false) :
    Path.OrdinaryName name := by
  obtain ⟨hcheck, hlast, _⟩ := locateParent_eq_some.mp hparent
  have hne : name ≠ "" := by
    rintro rfl
    -- the path is empty or ends in a slash
    rcases Path.toList_join p (show "".toList.head? ≠ some '/' by simp) with
      ⟨_, htext⟩ | ⟨front, _, htext⟩ | ⟨_, htext⟩
    · exact (checkPath_eq_ok.mp hcheck).2 (String.toList_eq_nil_iff.mp htext)
    · simp [Path.endsInSlash, htext] at hend
    · simp [Path.endsInSlash, htext] at hend
  rw [Path.names_join_piece p hne hslash, List.getLast?_concat, Option.some.injEq] at hlast
  exact ⟨hne, hslash, hlast ▸ hdots⟩

/-- A single name that leads to a file is an ordinary one. -/
theorem ordinaryName_of_isFile {fs : FileSystem} {p : Path} {name : String}
    (hslash : '/' ∉ name.toList) (h : fs.isFile (p.join name) = true) :
    Path.OrdinaryName name := by
  obtain ⟨_, _, _, hparent, hdots, _, hend, _⟩ := isFile_iff_parent.mp h
  exact ordinaryName_of_locateParent hslash hparent hdots hend

/-- Whether the path of a file within a directory can be followed hangs on the file alone. -/
theorem isFile_join {fs : FileSystem} {p : Path} {name : String} (h : Path.OrdinaryName name)
    (hready : fs.Ready p) :
    fs.isFile (p.join name) = true ↔
      checkPath (p.join name) = .ok () ∧ name.utf8ByteSize ≤ nameLimit ∧
        (fs.content? ((p.join name).location fs.cwd)).isSome = true := by
  have hnames := Path.names_join p h
  rw [isFile_iff_parent]
  constructor
  · rintro ⟨loc, name', content, hparent, hdots, hshort, _, hfile⟩
    obtain ⟨hcheck, hlast, _⟩ := locateParent_eq_some.mp hparent
    rw [hnames, List.getLast?_concat, Option.some.injEq] at hlast
    subst hlast
    rw [location_of_locateParent hparent hdots, content?_eq_some.mpr hfile]
    exact ⟨hcheck, hshort, rfl⟩
  · rintro ⟨hcheck, hshort, hsome⟩
    obtain ⟨content, hcontent⟩ := Option.isSome_iff_exists.mp hsome
    rw [Path.location_join p fs.cwd h, content?_eq_some] at hcontent
    have hdir := @sight?_above fs (p.location fs.cwd) name [] (by rw [hcontent]; rfl)
    refine ⟨p.location fs.cwd, name, content, ?_, h.leadsOn, hshort,
      Path.endsInSlash_join p h, hcontent⟩
    refine locateParent_eq_some.mpr ⟨hcheck, ?_, ?_, hdir⟩
    · rw [hnames, List.getLast?_concat]
    · rw [hnames, List.dropLast_concat, origin, Path.origin_join p fs.cwd h]
      exact walk_of_ready hready

theorem isFile_join_congr {fs fs' : FileSystem} {p : Path} {name : String}
    (h : Path.OrdinaryName name) (hready : fs.Ready p) (hready' : fs'.Ready p)
    (hcwd : fs'.cwd = fs.cwd)
    (hcontent : fs'.content? ((p.join name).location fs.cwd) =
      fs.content? ((p.join name).location fs.cwd)) :
    fs'.isFile (p.join name) = fs.isFile (p.join name) := by
  rw [Bool.eq_iff_iff, isFile_join h hready', isFile_join h hready, hcwd, hcontent]

end Intake.Files.FileSystem
