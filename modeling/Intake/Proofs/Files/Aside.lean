import Intake.Proofs.Files.Grounded
import Intake.Proofs.Files.Publishing

/-!
# Files aside from a path

What is done along a path hangs only on what is seen on its way. So a directory that can be
made can also be made in a tree that has one more file, if that file is not in its way; and
then the trees differ in nothing but that file afterwards, too.
-/

namespace Intake.Files

namespace FileSystem

variable {fs fs' : FileSystem}

/-! ## Along a path -/

theorem step_congr {loc : Location} {name : String} (hloc : fs'.sight? loc = fs.sight? loc)
    (hnext : fs'.sight? (loc.enter name) = fs.sight? (loc.enter name)) :
    fs'.step loc name = fs.step loc name := by
  rw [step_eq, step_eq, hloc]
  rw [Location.enter] at hnext
  by_cases hdot : name = "."
  · simp only [hdot, if_true]
  · by_cases hdots : name = ".."
    · simp only [hdots, if_true]
    · rw [if_neg hdot, if_neg hdots] at hnext
      rw [hnext]

theorem walk_congr {names : List String} :
    ∀ {loc : Location}, (∀ front back, names = front ++ back →
        fs'.sight? (front.foldl Location.enter loc) = fs.sight? (front.foldl Location.enter loc)) →
      fs'.walk loc names = fs.walk loc names := by
  induction names with
  | nil => exact fun _ => rfl
  | cons name rest ih =>
      intro loc h
      have hloc : fs'.sight? loc = fs.sight? loc := h [] (name :: rest) rfl
      have hnext : fs'.sight? (loc.enter name) = fs.sight? (loc.enter name) := h [name] rest rfl
      rw [walk, walk, step_congr hloc hnext]
      cases hstep : fs.step loc name with
      | error e => rfl
      | ok next =>
          obtain ⟨_, rfl, _⟩ := step_eq_ok.mp hstep
          exact ih fun front back hsplit => h (name :: front) back (by rw [hsplit]; rfl)

theorem dirAt_congr {loc : Location} (h : fs'.sight? loc = fs.sight? loc) :
    fs'.dirAt loc = fs.dirAt loc := by
  rw [dirAt, dirAt]
  cases hget : fs.get? loc with
  | none => rw [get?_eq_none.mp (h.trans (get?_eq_none.mpr hget))]
  | some n =>
      cases n with
      | file content => rw [get?_eq_file.mp (h.trans (get?_eq_file.mpr hget))]
      | dir es =>
          obtain ⟨es', hes'⟩ := get?_eq_dir.mp (h.trans (get?_eq_dir.mpr ⟨es, hget⟩))
          rw [hes']

theorem locateParent_eq (fs : FileSystem) (p : Path) :
    fs.locateParent p = checkPath p >>= fun _ =>
      match p.names.getLast? with
      | none => .ok none
      | some last =>
        (fs.walk (fs.origin p) p.names.dropLast >>= fs.dirAt).map fun loc => some (loc, last) := by
  unfold locateParent
  refine congrArg (checkPath p >>= ·) (funext fun _ => ?_)
  cases p.names.getLast? with
  | none => rfl
  | some last =>
      simp only
      cases fs.walk (fs.origin p) p.names.dropLast with
      | error e => rfl
      | ok loc =>
          simp only [bind, Except.bind, dirAt]
          cases fs.get? loc with
          | none => rfl
          | some n => cases n <;> rfl

section Along

variable {p : Path} (hcwd : fs'.cwd = fs.cwd)
  (hsights : ∀ loc ∈ fs.wayTo p, fs'.sight? loc = fs.sight? loc)

include hcwd hsights

theorem walk_front_congr {front back : List String} (hsplit : p.names = front ++ back) :
    fs'.walk (fs'.origin p) front = fs.walk (fs.origin p) front := by
  rw [origin, origin, hcwd]
  refine walk_congr fun front' back' hfront => hsights _ ⟨front', back' ++ back, ?_, rfl⟩
  rw [hsplit, hfront, List.append_assoc]

theorem locateParent_congr : fs'.locateParent p = fs.locateParent p := by
  rw [locateParent_eq, locateParent_eq]
  cases hlast : p.names.getLast? with
  | none => rfl
  | some last =>
      have hsplit := (names_split hlast).symm
      rw [walk_front_congr hcwd hsights hsplit]
      cases hwalk : fs.walk (fs.origin p) p.names.dropLast with
      | error e => rfl
      | ok loc =>
          have hsight : fs'.sight? loc = fs.sight? loc :=
            hsights loc ⟨_, _, hsplit, location_of_walk hwalk⟩
          simp only [bind, Except.bind, dirAt_congr hsight]

theorem isDir_congr : fs'.isDir p = fs.isDir p := by
  have hwalk := walk_front_congr hcwd hsights (List.append_nil p.names).symm
  rw [Bool.eq_iff_iff, isDir_iff, isDir_iff]
  refine exists_congr fun loc => ?_
  rw [locate_eq_ok, locate_eq_ok, hwalk, and_assoc, and_assoc, and_assoc, and_assoc]
  refine and_congr_right fun _ => and_congr_right fun hloc => ?_
  rw [hsights loc ⟨_, _, (List.append_nil p.names).symm, location_of_walk hloc⟩]

end Along

/-! ## Making directories beside a file -/

/-- All that is passed on the way to a directory is a directory. -/
theorem dir_of_passes {p : Path} (h : fs.isDir p = true) {loc : Location}
    (hloc : loc ∈ fs.wayTo p) : fs.sight? loc = some .directory := by
  obtain ⟨_, hwalk, hend⟩ := walk_of_isDir h
  obtain ⟨front, back, hsplit, rfl⟩ := hloc
  rw [hsplit] at hwalk
  obtain ⟨next, hfront, hback⟩ := walk_append_eq_ok.mp hwalk
  rw [← origin, ← location_of_walk hfront]
  exact dir_of_walk hback hend

end FileSystem

namespace Written

open FileSystem

variable {place : Location} {content : ByteArray} {a b : FileSystem} {p : Path}

theorem sights (h : Written place content a b) (hplace : place ∉ a.wayTo p) :
    ∀ loc ∈ a.wayTo p, b.sight? loc = a.sight? loc := by
  intro loc hloc
  have hne : loc ≠ place := by
    rintro rfl
    exact hplace hloc
  rw [h.sight, Function.update_of_ne hne]

/-- A directory is made beside a file as it is made without it. -/
theorem makeDir (h : Written place content a b) (hplace : place ∉ a.wayTo p) :
    (∃ e, a.makeDir p = .error e ∧ b.makeDir p = .error e) ∨
      ∃ a' b', a.makeDir p = .ok a' ∧ b.makeDir p = .ok b' ∧ Written place content a' b' := by
  have hsights := h.sights hplace
  have hparent := locateParent_congr h.cwd hsights
  cases hmade : a.makeDir p with
  | ok a' =>
      obtain ⟨hcwd, _, hsight⟩ := sight?_makeDir hmade
      obtain ⟨loc, name, hthere, hdots, hshort, hfree, _⟩ := makeDir_eq_ok.mp hmade
      have hplace' := location_of_locateParent hthere hdots
      have hway := hsights _ (location_mem_wayTo a p)
      have hmade' : b.makeDir p = .ok (b.put (loc ++ [name]) .empty) := by
        refine makeDir_eq_ok.mpr ⟨loc, name, hparent.trans hthere, hdots, hshort, ?_, rfl⟩
        rw [← hplace', hway, hplace', hfree]
      obtain ⟨hcwd', _, hsight'⟩ := sight?_makeDir hmade'
      have hne : place ≠ p.location a.cwd :=
        fun heq => hplace (heq ▸ location_mem_wayTo a p)
      refine Or.inr ⟨a', _, rfl, hmade', ⟨?_, ?_, ?_⟩⟩
      · rw [hcwd', h.cwd, hcwd]
      · rw [hsight, Function.update_of_ne hne]
        exact h.free
      · rw [hsight', h.sight, h.cwd, hsight, Function.update_comm hne]
  | error e =>
      refine Or.inl ⟨e, rfl, ?_⟩
      unfold FileSystem.makeDir at hmade ⊢
      rw [hparent]
      cases hthere : a.locateParent p with
      | error e' =>
          rw [hthere] at hmade
          exact hmade
      | ok parent =>
          rw [hthere] at hmade
          cases parent with
          | none => exact hmade
          | some entry =>
              obtain ⟨loc, name⟩ := entry
              simp only [bind, Except.bind, isSome_entry?] at hmade ⊢
              by_cases hdots : isDots name = true
              · rw [if_pos hdots] at hmade ⊢
                exact hmade
              · have hway := hsights _ (location_mem_wayTo a p)
                rw [location_of_locateParent hthere (Bool.not_eq_true _ ▸ hdots)] at hway
                rw [if_neg hdots] at hmade ⊢
                rw [hway]
                by_cases hlong : nameLimit < name.utf8ByteSize
                · rw [if_pos hlong] at hmade ⊢
                  exact hmade
                · rw [if_neg hlong] at hmade ⊢
                  split at hmade
                  · next hthere =>
                      rw [if_pos hthere]
                      exact hmade
                  · cases hmade

theorem remakeDir (h : Written place content a b) (hplace : place ∉ a.wayTo p) :
    (b.remakeDir p).1 = (a.remakeDir p).1 ∧
      Written place content (a.remakeDir p).2 (b.remakeDir p).2 := by
  rw [FileSystem.remakeDir, FileSystem.remakeDir, isDir_congr h.cwd (h.sights hplace)]
  rcases h.makeDir hplace with ⟨e, ha, hb⟩ | ⟨a', b', ha, hb, hwritten⟩
  · rw [ha, hb]
    exact ⟨rfl, h⟩
  · rw [ha, hb]
    exact ⟨rfl, hwritten⟩

/-- A directory and its parents are made beside a file as they are made without it. -/
theorem makeDirsWithin {depth : Nat} :
    ∀ {p : Path} {a b : FileSystem}, p.components.length ≤ depth → Written place content a b →
      place ∉ a.wayTo p →
        (makeDirsWithin depth p b).1 = (makeDirsWithin depth p a).1 ∧
          Written place content (makeDirsWithin depth p a).2 (makeDirsWithin depth p b).2 := by
  induction depth using Nat.strong_induction_on with
  | _ depth ih =>
      intro p a b hdepth h hplace
      rw [makeDirsWithin_eq, makeDirsWithin_eq, isDir_congr h.cwd (h.sights hplace)]
      by_cases htext : p.text = ""
      · rw [if_pos htext, if_pos htext]
        exact ⟨rfl, h⟩
      rw [if_neg htext, if_neg htext]
      rcases h.makeDir hplace with ⟨e, ha, hb⟩ | ⟨a', b', ha, hb, hwritten⟩
      · rw [ha, hb]
        cases e with
        | notFound =>
            cases depth with
            | zero => exact ⟨rfl, h⟩
            | succ depth =>
                cases hq : p.parent? with
                | none => exact ⟨rfl, h⟩
                | some q =>
                    have hlength : q.components.length ≤ depth := by
                      rw [Path.components_parent hq, List.length_dropLast]
                      omega
                    -- the file is aside from the way to the parent, too
                    obtain ⟨hresult, hwritten⟩ := ih depth (Nat.lt_succ_self depth) hlength h
                      fun hmem => hplace (hmem.of_parent hq)
                    have hcwd := (makes_makeDirsWithin a hlength).touched.cwd
                    simp only
                    cases ha' : FileSystem.makeDirsWithin depth q a with
                    | mk r a' =>
                        cases hb' : FileSystem.makeDirsWithin depth q b with
                        | mk r' b' =>
                            rw [ha', hb'] at hresult hwritten
                            rw [ha'] at hcwd
                            cases hresult
                            cases r with
                            | error e => exact ⟨rfl, hwritten⟩
                            | ok u =>
                                refine hwritten.remakeDir ?_
                                rw [wayTo, hcwd]
                                exact hplace
        | _ => exact ⟨rfl, h⟩
      · rw [ha, hb]
        exact ⟨rfl, hwritten⟩

/-- A directory that can be made is made beside a file whose place it leaves free. -/
theorem makeDirs_ok (h : Written place content a b) {a' : FileSystem}
    (hmade : a.makeDirs p = (.ok (), a')) (hfree : a'.sight? place ≠ some .directory) :
    ∃ b', b.makeDirs p = (.ok (), b') ∧ Written place content a' b' := by
  rcases isDir_of_makeDirs hmade with hempty | hdir
  · have hnothing (fs : FileSystem) : fs.makeDirs p = (.ok (), fs) := by
      rw [makeDirs, makeDirsWithin_eq, if_pos hempty]
    rw [hnothing] at hmade
    cases hmade
    exact ⟨b, hnothing b, h⟩
  · have htouched := touched_makeDirs a p
    rw [hmade] at htouched
    have hplace : place ∉ a.wayTo p := by
      intro hmem
      refine hfree (dir_of_passes hdir ?_)
      rw [wayTo, htouched.cwd]
      exact hmem
    obtain ⟨hresult, hwritten⟩ := makeDirsWithin (Nat.le_refl p.components.length) h hplace
    rw [← makeDirs, ← makeDirs, hmade] at hresult hwritten
    exact ⟨(b.makeDirs p).2, Prod.ext hresult rfl, hwritten⟩

end Written

end Intake.Files
