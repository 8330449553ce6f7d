import Intake.Proofs.Files.Changes

/-!
# What publishing leaves behind

The temporary file has a name that nothing else has, so that taking it away restores what
was there before it. Publishing that fails leaves the directory that it made and nothing
else; publishing that succeeds leaves the target with its complete content besides.
-/

namespace Intake.Files

/-- A file system in which the same is seen, and which is entered at the same place. -/
structure Same (before after : FileSystem) : Prop where
  cwd : after.cwd = before.cwd
  sight : after.sight? = before.sight?

/-- A file system that differs from another one in a file at one place. -/
structure Written (place : Location) (content : ByteArray) (before after : FileSystem) :
    Prop where
  cwd : after.cwd = before.cwd
  free : before.sight? place ≠ some .directory
  sight : after.sight? = Function.update before.sight? place (some (.file content))

theorem Written.touched {place : Location} {content : ByteArray} {before after : FileSystem}
    (h : Written place content before after) : Touched {place} ∅ before after :=
  Touched.of_leaf h.cwd h.free (by simp) h.sight

theorem Same.touched {files dirs : Set Location} {before after : FileSystem}
    (h : Same before after) : Touched files dirs before after where
  cwd := h.cwd
  contents _ _ := FileSystem.content?_congr (by rw [h.sight])
  kept loc hloc := by rw [h.sight, hloc]
  made loc hloc := by
    rw [h.sight] at hloc
    exact Or.inl hloc

namespace FileSystem

/-! ## The temporary file -/

theorem length_le_names (es : List (String × Node)) {e : String × Node} (h : e ∈ es) :
    e.1.length ≤ es.foldr (fun e n => e.1.length + n) 0 := by
  induction es with
  | nil => cases h
  | cons first rest ih =>
      rw [List.foldr_cons]
      rcases List.mem_cons.mp h with rfl | h
      · exact Nat.le_add_right _ _
      · exact Nat.le_trans (ih h) (Nat.le_add_left _ _)

theorem length_freshName (es : List (String × Node)) :
    (freshName es).length = 4 + es.foldr (fun e n => e.1.length + n) 0 := by
  rw [freshName, String.length_append]
  refine congrArg (4 + ·) ?_
  rw [String.length_ofList, List.length_replicate]

theorem lookup_freshName (es : List (String × Node)) : es.lookup (freshName es) = none := by
  cases h : es.lookup (freshName es) with
  | none => rfl
  | some n =>
      have hle := length_le_names es (Node.mem_of_lookup h)
      rw [length_freshName] at hle
      omega

/-- Nothing is at the place of the temporary file. -/
theorem sight?_temporary (fs : FileSystem) (loc : Location) :
    fs.sight? (fs.temporary loc) = none := by
  rw [get?_eq_none, temporary, get?, Node.get?_append, ← get?]
  cases h : fs.get? loc with
  | none => rfl
  | some n =>
      rw [Option.bind_some, Option.elim_some, Node.get?_cons, lookup_freshName]
      rfl

theorem sight?_put_temporary {fs : FileSystem} {loc : Location} (content : ByteArray)
    (hdir : fs.sight? loc = some .directory) :
    (fs.put (fs.temporary loc) (.file content)).sight? =
      Function.update fs.sight? (fs.temporary loc) (some (.file content)) := by
  have hfree := fs.sight?_temporary loc
  rw [temporary] at hfree ⊢
  exact sight?_put_leaf hdir (by rw [hfree]; simp) rfl

/-- The temporary file makes no directory and takes none away. -/
theorem dir_put_temporary {fs : FileSystem} {loc : Location} (content : ByteArray)
    (hdir : fs.sight? loc = some .directory) (place : Location) :
    (fs.put (fs.temporary loc) (.file content)).sight? place = some .directory ↔
      fs.sight? place = some .directory := by
  rw [sight?_put_temporary content hdir]
  by_cases heq : place = fs.temporary loc
  · rw [heq, Function.update_self, fs.sight?_temporary loc]
    simp
  · rw [Function.update_of_ne heq]

/-- Taking the temporary file away restores what was there. -/
theorem sight?_remove_temporary {fs : FileSystem} {loc : Location} (content : ByteArray)
    (hdir : fs.sight? loc = some .directory) :
    ((fs.put (fs.temporary loc) (.file content)).remove (fs.temporary loc)).sight? =
      fs.sight? := by
  have hfree := fs.sight?_temporary loc
  have hput := sight?_put_temporary content hdir
  rw [temporary] at hfree hput ⊢
  rw [sight?_remove_leaf, hput, Function.update_idem, ← hfree, Function.update_eq_self]
  rw [hput, Function.update_self]
  simp

/-! ## Publishing -/

/-- A location, if a directory stands there. -/
def dirAt (fs : FileSystem) (loc : Location) : Except FileError Location :=
  match fs.get? loc with
  | some (.dir _) => .ok loc
  | some (.file _) => .error .notADirectory
  | none => .error .notFound

theorem dirAt_eq_ok {fs : FileSystem} {loc loc' : Location} :
    fs.dirAt loc' = .ok loc ↔ loc = loc' ∧ fs.sight? loc' = some .directory := by
  rw [dirAt, get?_eq_dir]
  split
  · next es hes => simp [hes, eq_comm]
  · next content hes => simp [hes]
  · next hes => simp [hes]

theorem locateDir_eq (fs : FileSystem) (dir : Path) :
    fs.locateDir dir = (if dir.text.isEmpty then .ok fs.cwd else fs.locate dir) >>= fs.dirAt := by
  unfold locateDir
  split <;> rfl

theorem locateDir_eq_ok {fs : FileSystem} {dir : Path} {loc : Location} :
    fs.locateDir dir = .ok loc ↔
      (dir.text = "" ∧ loc = fs.cwd ∨ dir.text ≠ "" ∧ fs.locate dir = .ok loc) ∧
        fs.sight? loc = some .directory := by
  rw [locateDir_eq]
  by_cases htext : dir.text = ""
  · rw [if_pos (String.isEmpty_iff.mpr htext)]
    refine dirAt_eq_ok.trans ?_
    simp only [htext, true_and, ne_eq, not_true_eq_false, false_and, or_false]
    exact and_congr_right fun h => by rw [h]
  · rw [if_neg fun h => htext (String.isEmpty_iff.mp h)]
    cases fs.locate dir with
    | error e => simp [htext, bind, Except.bind]
    | ok loc' =>
        refine dirAt_eq_ok.trans ?_
        simp only [htext, false_and, ne_eq, not_false_eq_true, true_and, false_or,
          Except.ok.injEq]
        rw [eq_comm]
        exact and_congr_right fun h => by rw [h]

/-- A directory that is ready can be opened, if its path begins at a directory. -/
theorem locateDir_of_ready {fs : FileSystem} {dir : Path} (h : fs.Ready dir)
    (horigin : fs.sight? (fs.origin dir) = some .directory) :
    fs.locateDir dir = .ok (dir.location fs.cwd) := by
  rcases h with hempty | hdir
  · obtain rfl : dir = ⟨""⟩ := by rw [← hempty]
    exact locateDir_eq_ok.mpr ⟨Or.inl ⟨rfl, rfl⟩, horigin⟩
  · obtain ⟨loc, hlocate, hsight⟩ := isDir_iff.mp hdir
    have htext := (checkPath_eq_ok.mp (locate_eq_ok.mp hlocate).1).2
    rw [← location_of_locate hlocate]
    exact locateDir_eq_ok.mpr ⟨Or.inr ⟨htext, hlocate⟩, hsight⟩

/-- The file that was moved has taken the place of its target, and nothing else is left of
the temporary file. -/
theorem written_of_moveTo {fs fs' : FileSystem} {loc : Location} {content bytes : ByteArray}
    {target : Path} (hdir : fs.sight? loc = some .directory)
    (h : (fs.put (fs.temporary loc) (.file content)).moveTo (fs.temporary loc) bytes target =
      .ok fs') :
    Written (target.location fs.cwd) bytes fs fs' ∧ fs'.isFile target = true := by
  have hback := dir_put_temporary content hdir
  have hremove := sight?_remove_temporary content hdir
  have hcwd : (fs.put (fs.temporary loc) (.file content)).cwd = fs.cwd := rfl
  generalize fs.put (fs.temporary loc) (.file content) = mid at *
  generalize fs.temporary loc = temporary at *
  obtain ⟨parent, name, hparent, hdots, hshort, hslash, hfree, rfl⟩ := moveTo_eq_ok.mp h
  have hplace := location_of_locateParent hparent hdots
  have hopen := (hback _).mp (locateParent_eq_some.mp hparent).2.2.2
  have hfree := mt (hback _).mpr hfree
  have hopen' : (mid.remove temporary).sight? parent = some .directory := by
    rw [hremove, hopen]
  have hfree' : (mid.remove temporary).sight? (parent ++ [name]) ≠ some .directory := by
    rw [hremove]
    exact hfree
  have hsight := sight?_put_leaf (x := .file bytes) hopen' hfree' rfl
  rw [hremove] at hsight
  rw [hcwd] at hplace
  rw [hplace]
  have hwritten : Written (parent ++ [name]) bytes fs
      ((mid.remove temporary).put (parent ++ [name]) (.file bytes)) := ⟨hcwd, hfree, hsight⟩
  have hthere := (congrFun hsight (parent ++ [name])).trans (Function.update_self _ _ _)
  refine ⟨hwritten, isFile_iff.mpr ⟨parent ++ [name], bytes, ?_, hthere⟩⟩
  refine locate_of_locateParent (show _ = mid.cwd from rfl) ?_ hparent hshort hdots
    (Or.inr ⟨hslash, bytes, hthere⟩)
  intro place hplace
  exact hwritten.touched.kept place ((hback place).mp hplace)

variable {ε : Type} {ofFile : FileError → ε} {fs fs' : FileSystem} {dir target : Path}
  {content : Except ε ByteArray}

/-- What publishing comes to after the directory was made: nothing, or the complete file. -/
theorem publish_cases :
    (∃ e, (fs.publish ofFile dir target content).1 = .error e ∧
      Same (fs.makeDirs dir).2 (fs.publish ofFile dir target content).2) ∨
    ∃ bytes, (fs.publish ofFile dir target content).1 = .ok () ∧ content = .ok bytes ∧
      Written (target.location fs.cwd) bytes (fs.makeDirs dir).2
        (fs.publish ofFile dir target content).2 ∧
      (fs.publish ofFile dir target content).2.isFile target = true := by
  have hcwd := (touched_makeDirs fs dir).cwd
  rw [publish]
  cases hmade : fs.makeDirs dir with
  | mk r made =>
      rw [hmade] at hcwd
      cases r with
      | error e => exact Or.inl ⟨_, rfl, rfl, rfl⟩
      | ok u =>
          simp only
          cases hloc : made.locateDir dir with
          | error e => exact Or.inl ⟨_, rfl, rfl, rfl⟩
          | ok loc =>
              have hdir := (locateDir_eq_ok.mp hloc).2
              simp only
              cases content with
              | error e => exact Or.inl ⟨_, rfl, rfl, sight?_remove_temporary _ hdir⟩
              | ok bytes =>
                  simp only [Except.toOption, Option.getD_some]
                  split
                  · next fs' hmove =>
                      right
                      have hwritten := written_of_moveTo hdir hmove
                      rw [hcwd] at hwritten
                      exact ⟨bytes, rfl, rfl, hwritten⟩
                  · exact Or.inl ⟨_, rfl, rfl, sight?_remove_temporary _ hdir⟩

/-- Publishing that fails leaves directories on the way to the target's one, and nothing else. -/
theorem touched_publish_error {e : ε} (h : (fs.publish ofFile dir target content).1 = .error e) :
    Touched ∅ (fs.wayTo dir) fs (fs.publish ofFile dir target content).2 := by
  rcases @publish_cases ε ofFile fs dir target content with ⟨_, _, hsame⟩ | ⟨_, hok, _⟩
  · exact (touched_makeDirs fs dir).trans hsame.touched
  · rw [hok] at h
    cases h

/-- Publishing that succeeds leaves the complete target besides. -/
theorem touched_publish_ok (h : (fs.publish ofFile dir target content).1 = .ok ()) :
    Touched {target.location fs.cwd} (fs.wayTo dir) fs (fs.publish ofFile dir target content).2 ∧
      (fs.publish ofFile dir target content).2.isFile target = true ∧
      ∃ bytes, content = .ok bytes ∧
        (fs.publish ofFile dir target content).2.content? (target.location fs.cwd) = some bytes := by
  rcases @publish_cases ε ofFile fs dir target content with ⟨_, hbad, _⟩ | ⟨bytes, _, hcontent, hwritten, hfile⟩
  · rw [hbad] at h
    cases h
  · refine ⟨?_, hfile, bytes, hcontent, ?_⟩
    · refine ((touched_makeDirs fs dir).mono (Set.empty_subset _) (Set.Subset.refl _)).trans ?_
      exact hwritten.touched.mono (Set.Subset.refl _) (Set.empty_subset _)
    · rw [content?_eq_some, hwritten.sight, Function.update_self]

theorem touched_publish {ε : Type} (ofFile : FileError → ε) (fs : FileSystem)
    (dir target : Path) (content : Except ε ByteArray) :
    Touched {target.location fs.cwd} (fs.wayTo dir) fs
      (fs.publish ofFile dir target content).2 := by
  cases h : (fs.publish ofFile dir target content).1 with
  | error e => exact (touched_publish_error h).mono (Set.empty_subset _) (Set.Subset.refl _)
  | ok u => exact (touched_publish_ok h).1

theorem keeps_publish {ε : Type} (ofFile : FileError → ε) (fs : FileSystem)
    (dir target : Path) (content : Except ε ByteArray) :
    Keeps fs (fs.publish ofFile dir target content).2 := by
  cases h : (fs.publish ofFile dir target content).1 with
  | error e => exact (touched_publish_error h).keeps fun loc hloc => absurd hloc (by simp)
  | ok u =>
      obtain ⟨htouched, _, bytes, _, hbytes⟩ := touched_publish_ok h
      refine htouched.keeps ?_
      rintro loc rfl _
      rw [hbytes]
      rfl

/-! ## Whether publishing succeeds -/

/-- Whether content can be moved to a target, after what is seen at its place. -/
def landing {ε : Type} (ofFile : FileError → ε) (target : Path) (name : String)
    (there : Option Sight) : Except ε ByteArray → Except ε Unit
  | .error e => .error e
  | .ok _ =>
    if '\x00' ∈ target.text.toList then .error (ofFile .invalid)
    else if nameLimit < name.utf8ByteSize then .error (ofFile .nameTooLong)
    else if there = some .directory then .error (ofFile .isADirectory)
    else .ok ()

theorem moveTo_temporary {ε : Type} (ofFile : FileError → ε) {fs : FileSystem} {p : Path}
    {name : String} {loc : Location} (hname : Path.OrdinaryName name)
    (hwalk : fs.walk (fs.origin p) p.names = .ok loc) (hdir : fs.sight? loc = some .directory)
    (bytes : ByteArray) :
    ((fs.put (fs.temporary loc) (.file bytes)).moveTo (fs.temporary loc) bytes
        (p.join name)).mapError ofFile =
      (landing ofFile (p.join name) name (fs.sight? (loc ++ [name])) (.ok bytes)).map fun _ =>
        ((fs.put (fs.temporary loc) (.file bytes)).remove (fs.temporary loc)).put
          (loc ++ [name]) (.file bytes) := by
  rw [landing]
  by_cases hnul : '\x00' ∈ (p.join name).text.toList
  · have hmove : (fs.put (fs.temporary loc) (.file bytes)).moveTo (fs.temporary loc) bytes
        (p.join name) = .error .invalid := by
      rw [moveTo]
      simp [hnul, bind, Except.bind]
    rw [if_pos hnul, hmove]
    rfl
  · have hback := dir_put_temporary bytes hdir
    have hcwd : (fs.put (fs.temporary loc) (.file bytes)).cwd = fs.cwd := rfl
    generalize fs.put (fs.temporary loc) (.file bytes) = mid at *
    have hparent : mid.locateParent (p.join name) = .ok (some (loc, name)) := by
      refine locateParent_eq_some.mpr ⟨?_, ?_, ?_, (hback loc).mpr hdir⟩
      · exact checkPath_eq_ok.mpr ⟨hnul, Path.text_join_ne_empty p hname⟩
      · rw [Path.names_join p hname, List.getLast?_concat]
      · rw [Path.names_join p hname, List.dropLast_concat, origin, hcwd,
          Path.origin_join p fs.cwd hname]
        exact walk_mono (fun place => (hback place).mpr) hwalk hdir
    rw [if_neg hnul, moveTo_of_locateParent _ _ hparent hname.leadsOn
      (Path.endsInSlash_join p hname)]
    by_cases hlong : nameLimit < name.utf8ByteSize
    · rw [if_pos hlong, if_pos hlong]
      rfl
    · rw [if_neg hlong, if_neg hlong]
      by_cases hplace : fs.sight? (loc ++ [name]) = some .directory
      · rw [if_pos ((hback _).mpr hplace), if_pos hplace]
        rfl
      · rw [if_neg (mt (hback _).mp hplace), if_neg hplace]
        rfl

/-- What publishing comes to after the directory was made and opened. -/
theorem publish_opened {ε : Type} {ofFile : FileError → ε} {fs made : FileSystem}
    {dir p : Path} {name : String} {loc : Location} (hname : Path.OrdinaryName name)
    (hmade : fs.makeDirs dir = (.ok (), made)) (hopen : made.locateDir dir = .ok loc)
    (hwalk : made.walk (made.origin p) p.names = .ok loc) (content : Except ε ByteArray) :
    (fs.publish ofFile dir (p.join name) content).1 =
      landing ofFile (p.join name) name (made.sight? (loc ++ [name])) content := by
  rw [publish, hmade]
  simp only [hopen]
  cases content with
  | error e => rfl
  | ok bytes =>
      have hmove := moveTo_temporary ofFile hname hwalk (locateDir_eq_ok.mp hopen).2
        bytes
      simp only [Except.toOption, Option.getD_some]
      generalize landing ofFile (p.join name) name _ _ = r at *
      split
      · next fs' hfs' =>
          rw [hfs'] at hmove
          cases r with
          | error e => cases hmove
          | ok u => rfl
      · next e he =>
          rw [he] at hmove
          cases r with
          | error e' =>
              cases hmove
              rfl
          | ok u => cases hmove

end FileSystem

end Intake.Files
