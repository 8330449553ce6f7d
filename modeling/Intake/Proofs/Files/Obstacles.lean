import Intake.Proofs.Files.Grounded
import Mathlib.Data.List.Induction

/-!
# What stands in the way of a directory

Whether a directory can be made with its parents is seen by going along its path from the
left: over what is there, and then over names that can be made. Where the path goes up only
behind directories that are there, this is the same in every tree that has more
directories on the way.
-/

namespace Intake.Files

namespace FileSystem

/-! ## Obstacles -/

/-- What names that are to be made run into. -/
def tooLong (names : List String) : Option FileError :=
  if names.any (nameLimit < ·.utf8ByteSize) then some .nameTooLong else none

/-- What stands in the way of a directory at the end of some names, if the missing ones are
made. -/
def obstacle (fs : FileSystem) : Location → List String → Option FileError
  | loc, [] =>
    match fs.sight? loc with
    | some .directory => none
    | _ => some .exists
  | loc, name :: rest =>
    match fs.step loc name with
    | .ok next => fs.obstacle next rest
    | .error .notFound => tooLong rest
    | .error e => some e

section Making

variable {fs : FileSystem} {p : Path} {front rest : List String} {name : String}
  {loc : Location} {e : FileError}

theorem locateParent_of_blocked (hcheck : checkPath p = .ok ())
    (hlast : p.names.getLast? = some name) (hwalk : fs.walk (fs.origin p) p.names.dropLast = .error e) :
    fs.locateParent p = .error e := by
  simp [locateParent, hcheck, hlast, hwalk, bind, Except.bind]

/-- A name that cannot be followed is in the way of a directory behind it. -/
theorem makeDir_of_blocked (hcheck : checkPath p = .ok ())
    (hnames : p.names = front ++ name :: rest) (hfront : fs.walk (fs.origin p) front = .ok loc)
    (hstep : fs.step loc name = .error e) (hmissing : rest = [] → e ≠ .notFound) :
    fs.makeDir p = .error e := by
  rcases List.eq_nil_or_concat rest with hnil | ⟨middle, last, hrest⟩
  · have hne := hmissing hnil
    subst hnil
    have hlast : p.names.getLast? = some name := by rw [hnames, List.getLast?_concat]
    have hwalk : fs.walk (fs.origin p) p.names.dropLast = .ok loc := by
      rw [hnames, List.dropLast_concat, hfront]
    rw [step_eq] at hstep
    rw [makeDir]
    cases hloc : fs.sight? loc with
    | none =>
        rw [hloc] at hstep
        exact absurd (Except.error.inj hstep).symm hne
    | some s =>
        rw [hloc] at hstep
        cases s with
        | file content =>
            have hget := get?_eq_file.mp hloc
            cases hstep
            simp [locateParent, hcheck, hlast, hwalk, hget, bind, Except.bind]
        | directory =>
            rw [locateParent_eq_some.mpr ⟨hcheck, hlast, hwalk, hloc⟩]
            by_cases hdot : name = "."
            · simp [hdot] at hstep
            · by_cases hdots : name = ".."
              · simp [hdots] at hstep
              · by_cases hlong : nameLimit < name.utf8ByteSize
                · simp only [hdot, hdots, hlong, if_false, if_true] at hstep
                  cases hstep
                  simp [isDots, hdot, hdots, hlong, bind, Except.bind]
                · by_cases hsome : (fs.sight? (loc ++ [name])).isSome = true
                  · simp [hdot, hdots, hlong, hsome] at hstep
                  · simp only [hdot, hdots, hlong, hsome, if_false] at hstep
                    exact absurd (Except.error.inj hstep).symm hne
  · rw [List.concat_eq_append] at hrest
    subst hrest
    rw [← List.cons_append, ← List.append_assoc] at hnames
    have hlast : p.names.getLast? = some last := by rw [hnames, List.getLast?_concat]
    have hwalk : fs.walk (fs.origin p) p.names.dropLast = .error e := by
      rw [hnames, List.dropLast_concat, walk_append, hfront]
      simp only [Except.bind, walk, hstep]
      rfl
    rw [makeDir, locateParent_of_blocked hcheck hlast hwalk]
    rfl

theorem not_isDir_of_blocked (hnames : p.names = front ++ name :: rest)
    (hfront : fs.walk (fs.origin p) front = .ok loc) (hstep : fs.step loc name = .error e) :
    fs.isDir p = false := by
  rw [Bool.eq_false_iff]
  intro hdir
  obtain ⟨_, hwalk, _⟩ := walk_of_isDir hdir
  rw [hnames, walk_append, hfront] at hwalk
  simp only [Except.bind, walk, hstep] at hwalk
  cases hwalk

theorem Makes.of_refused {r : Except FileError Unit × FileSystem} (h : Makes p fs r)
    (hmade : fs.makeDir p = .error e) (hne : e ≠ .notFound) (htext : p.text ≠ "") :
    r = (if fs.isDir p then .ok () else .error e, fs) := by
  cases h with
  | nothing hempty => exact absurd hempty htext
  | made _ h => rw [h] at hmade; cases hmade
  | refused _ h _ =>
      rw [h] at hmade
      cases hmade
      rfl
  | noParent _ h _ => rw [h] at hmade; cases hmade; exact absurd rfl hne
  | refusedAbove _ h _ _ => rw [h] at hmade; cases hmade; exact absurd rfl hne
  | madeAbove _ h _ _ => rw [h] at hmade; cases hmade; exact absurd rfl hne

theorem Makes.of_made {r : Except FileError Unit × FileSystem} {fs' : FileSystem}
    (h : Makes p fs r) (hmade : fs.makeDir p = .ok fs') (htext : p.text ≠ "") :
    r = (.ok (), fs') := by
  cases h with
  | nothing hempty => exact absurd hempty htext
  | made _ h =>
      rw [h] at hmade
      cases hmade
      rfl
  | refused _ h _ => rw [h] at hmade; cases hmade
  | noParent _ h _ => rw [h] at hmade; cases hmade
  | refusedAbove _ h _ _ => rw [h] at hmade; cases hmade
  | madeAbove _ h _ _ => rw [h] at hmade; cases hmade

theorem enter_plain {names : List String} (h : ∀ n ∈ names, Plain n) :
    ∀ loc : Location, names.foldl Location.enter loc = loc ++ names := by
  induction names with
  | nil => exact fun loc => (List.append_nil loc).symm
  | cons name rest ih =>
      intro loc
      obtain ⟨hdot, hdots⟩ := h name List.mem_cons_self
      rw [List.foldl_cons, ih fun n hn => h n (List.mem_cons_of_mem _ hn), Location.enter,
        if_neg hdot, if_neg hdots, List.append_assoc]
      rfl

theorem isDots_eq_false {name : String} (h : Plain name) : isDots name = false := by
  simp [isDots, h.1, h.2]

theorem step_plain (h : Plain name) (hdir : fs.sight? loc = some .directory) :
    fs.step loc name =
      if nameLimit < name.utf8ByteSize then .error .nameTooLong
      else if (fs.sight? (loc ++ [name])).isSome then .ok (loc ++ [name])
      else .error .notFound := by
  rw [step_eq, hdir]
  simp only [h.1, h.2, if_false]

/-- A name that does not lead down can be followed from every directory. -/
theorem step_not_plain (h : ¬Plain name) (hdir : fs.sight? loc = some .directory) :
    fs.step loc name = .ok (loc.enter name) ∧ (fs.sight? (loc.enter name)).isSome = true := by
  refine ⟨step_eq_ok.mpr ⟨hdir, rfl, fun hdot hdots => absurd ⟨hdot, hdots⟩ h⟩, ?_⟩
  rw [Location.enter]
  split
  · rw [hdir]
    rfl
  · next hdot =>
      have hdots : name = ".." := by
        by_contra hdots
        exact h ⟨hdot, hdots⟩
      rw [if_pos hdots, sight?_dropLast hdir]
      rfl

/-- Behind a name that cannot be followed, a path that goes up only from places that it can
reach goes down. -/
theorem plain_behind (hstep : fs.step loc name = .error e) (hdot : "." ∉ rest)
    (hup : ∀ down up, name :: rest = down ++ ".." :: up → ∃ loc', fs.walk loc down = .ok loc') :
    ∀ n ∈ rest, Plain n := by
  intro n hn
  constructor
  · rintro rfl
    exact hdot hn
  · rintro rfl
    obtain ⟨down, up, rfl⟩ := List.append_of_mem hn
    obtain ⟨_, hwalk⟩ := hup (name :: down) up rfl
    obtain ⟨_, hfirst, _⟩ := walk_cons_eq_ok.mp hwalk
    rw [hstep] at hfirst
    cases hfirst

/-- There is no file at a name that is missing, or below it. -/
theorem content?_of_missing (h : fs.sight? (loc ++ [name]) = none) (below : List String) :
    fs.content? (loc ++ name :: below) = none := by
  cases below with
  | nil => rw [content?, h]
  | cons next below =>
      have hnothing := sight?_below (by rw [h]; simp) next below
      rw [List.append_assoc, List.singleton_append] at hnothing
      rw [content?, hnothing]

theorem tooLong_eq_some {names : List String} (h : tooLong names = some e) :
    e = .nameTooLong := by
  rw [tooLong] at h
  split at h
  · exact (Option.some.inj h).symm
  · cases h

theorem tooLong_concat (names : List String) (last : String) :
    tooLong (names ++ [last]) =
      if nameLimit < last.utf8ByteSize then some .nameTooLong else tooLong names := by
  simp only [tooLong, List.any_append, List.any_cons, List.any_nil, Bool.or_false]
  by_cases hlong : nameLimit < last.utf8ByteSize <;> simp [hlong]

/-- A last name is made again below a directory that was made for it, unless it is too long. -/
theorem remakeDir_of_walk (hcheck : checkPath p = .ok ())
    (hnames : p.names = front ++ [name]) (hfront : fs.walk (fs.origin p) front = .ok loc)
    (hdir : fs.sight? loc = some .directory) (hplain : Plain name)
    (hfile : fs.content? (loc ++ [name]) = none) :
    (fs.remakeDir p).1 =
      if nameLimit < name.utf8ByteSize then .error .nameTooLong else .ok () := by
  have hstep := step_plain hplain hdir
  by_cases hlong : nameLimit < name.utf8ByteSize
  · rw [if_pos hlong] at hstep ⊢
    rw [remakeDir, makeDir_of_blocked hcheck hnames hfront hstep (by simp)]
    simp [not_isDir_of_blocked hnames hfront hstep]
  · rw [if_neg hlong] at hstep ⊢
    cases hthere : fs.sight? (loc ++ [name]) with
    | none =>
        have hlast : p.names.getLast? = some name := by rw [hnames, List.getLast?_concat]
        have hwalk : fs.walk (fs.origin p) p.names.dropLast = .ok loc := by
          rw [hnames, List.dropLast_concat, hfront]
        rw [remakeDir, makeDir_eq_ok.mpr ⟨loc, name,
          locateParent_eq_some.mpr ⟨hcheck, hlast, hwalk, hdir⟩, isDots_eq_false hplain,
          Nat.not_lt.mp hlong, hthere, rfl⟩]
    | some s =>
        cases s with
        | file content =>
            rw [content?_eq_some.mpr hthere] at hfile
            cases hfile
        | directory =>
            rw [hthere] at hstep
            have hwalk : fs.walk (fs.origin p) p.names = .ok (loc ++ [name]) := by
              rw [hnames]
              exact walk_append_eq_ok.mpr ⟨loc, hfront, by rw [walk_singleton, hstep]; rfl⟩
            rw [remakeDir, makeDir_of_walk hcheck hwalk]
            simp [isDir_of_walk hcheck hwalk hthere]

theorem checkPath_parent {q : Path} (hcheck : checkPath p = .ok ()) (hq : p.parent? = some q)
    (hnames : q.names ≠ []) : checkPath q = .ok () := by
  refine checkPath_eq_ok.mpr ⟨?_, ?_⟩
  · intro hnul
    rw [(Path.parent?_eq_some.mp hq).2] at hnul
    rcases Path.mem_text_ofComponents hnul with hslash | ⟨piece, hpiece, hc⟩
    · cases hslash
    · have hname := p.components_leftOf.mem ((List.dropLast_sublist _).subset hpiece)
      exact (checkPath_eq_ok.mp hcheck).1 (Path.mem_text_of_name hname hc)
  · intro hempty
    rw [Path.names_eq, hempty] at hnames
    exact hnames rfl

/-- A directory is made below its parent that was made from a missing name on, unless its
name is too long. -/
theorem remakeDir_of_missing {q : Path} {fs' : FileSystem} {last : String}
    (hcheck : checkPath p = .ok ()) (hq : p.parent? = some q)
    (hnames : p.names = q.names ++ [last]) (hqnames : q.names = front ++ name :: rest)
    (hfront : fs.walk (fs.origin p) front = .ok loc) (hall : ∀ n ∈ name :: rest, Plain n)
    (hplain : Plain last) (hfree : fs.sight? (loc ++ [name]) = none)
    (hmakes : Makes q fs (.ok (), fs')) :
    (fs'.remakeDir p).1 =
      if nameLimit < last.utf8ByteSize then .error .nameTooLong else .ok () := by
  have hqcheck := checkPath_parent hcheck hq (by rw [hqnames]; simp)
  have hqdir := (hmakes.isDir rfl).resolve_left (checkPath_eq_ok.mp hqcheck).2
  obtain ⟨_, hwalk, hqsight⟩ := walk_of_isDir hqdir
  have htouched := hmakes.touched
  have hcwd := htouched.cwd
  rw [origin, Path.origin_parent hq, ← origin] at hwalk
  have hplace : q.location fs'.cwd = loc ++ name :: rest := by
    rw [Path.location, hqnames, List.foldl_append, Path.origin_parent hq, hcwd,
      ← origin, ← location_of_walk hfront, enter_plain hall]
  -- only directories are new, so no file is in the way
  have hfile : fs'.content? (q.location fs'.cwd ++ [last]) = none := by
    rw [htouched.contents _ (Set.notMem_empty _), hplace, List.append_assoc, List.cons_append]
    exact content?_of_missing hfree _
  exact remakeDir_of_walk hcheck hnames hwalk hqsight hplain hfile

/-- Where the first missing name can be made, only a name that is too long is in the way of
the others. -/
theorem Makes.of_missing (hdir : fs.sight? loc = some .directory) (hplain : Plain name)
    (hshort : name.utf8ByteSize ≤ nameLimit) (hfree : fs.sight? (loc ++ [name]) = none) :
    ∀ {p : Path} {r : Except FileError Unit × FileSystem}, checkPath p = .ok () →
      p.components = p.names → p.names = front ++ name :: rest →
      fs.walk (fs.origin p) front = .ok loc → (∀ n ∈ rest, Plain n) → Makes p fs r →
      r.1 = (tooLong rest).elim (.ok ()) .error := by
  have hstep := step_plain hplain hdir
  rw [if_neg (Nat.not_lt.mpr hshort), hfree] at hstep
  -- parents are made first, so names are taken from the end until one can be made
  induction rest using List.reverseRecOn with
  | nil =>
      intro p r hcheck _ hnames hfront _ h
      have hlast : p.names.getLast? = some name := by rw [hnames, List.getLast?_concat]
      have hwalk : fs.walk (fs.origin p) p.names.dropLast = .ok loc := by
        rw [hnames, List.dropLast_concat, hfront]
      have hmade := makeDir_eq_ok.mpr ⟨loc, name,
        locateParent_eq_some.mpr ⟨hcheck, hlast, hwalk, hdir⟩, isDots_eq_false hplain,
        hshort, hfree, rfl⟩
      rw [h.of_made hmade (checkPath_eq_ok.mp hcheck).2]
      rfl
  | append_singleton rest last ih =>
      intro p r hcheck hspare hnames hfront hall h
      have htext := (checkPath_eq_ok.mp hcheck).2
      have hmade := makeDir_of_blocked hcheck hnames hfront hstep (by simp)
      have habove (q : Path) (hq : p.parent? = some q) {r' : Except FileError Unit × FileSystem}
          (h' : Makes q fs r') :
          q.names = front ++ name :: rest ∧ r'.1 = (tooLong rest).elim (.ok ()) .error := by
        have hqnames : q.names = front ++ name :: rest := by
          rw [Path.names_parent hq, hspare, hnames, ← List.cons_append, ← List.append_assoc,
            List.dropLast_concat]
        have hqcheck := checkPath_parent hcheck hq (by rw [hqnames]; simp)
        refine ⟨hqnames, ih hqcheck ?_ hqnames ?_ ?_ h'⟩
        · rw [Path.components_parent hq, Path.names_parent hq]
        · rw [origin, Path.origin_parent hq]
          exact hfront
        · exact fun n hn => hall n (List.mem_append_left _ hn)
      rw [tooLong_concat]
      cases h with
      | nothing hempty => exact absurd hempty htext
      | made _ h => rw [h] at hmade; cases hmade
      | refused _ h hne => rw [h] at hmade; cases hmade; exact absurd rfl hne
      | noParent _ _ hnone =>
          rw [Path.parent?_eq_none, hspare, hnames] at hnone
          simp at hnone
      | refusedAbove _ _ hq h' =>
          obtain ⟨_, hresult⟩ := habove _ hq h'
          cases hlong : tooLong rest with
          | none =>
              rw [hlong] at hresult
              cases hresult
          | some e' =>
              rw [hlong] at hresult
              cases hresult
              rw [tooLong_eq_some hlong, ite_self]
              rfl
      | @madeAbove _ q _ fs' _ _ hq h' =>
          obtain ⟨hqnames, hresult⟩ := habove q hq h'
          have hnone : tooLong rest = none := by
            cases hlong : tooLong rest with
            | none => rfl
            | some e =>
                rw [hlong] at hresult
                cases hresult
          have hall' : ∀ n ∈ name :: rest, Plain n :=
            List.forall_mem_cons.mpr ⟨hplain, fun n hn => hall n (List.mem_append_left _ hn)⟩
          have hlast : p.names = q.names ++ [last] := by
            rw [hqnames, hnames, List.append_assoc, List.cons_append]
          rw [hnone, remakeDir_of_missing hcheck hq hlast hqnames hfront hall' (hall last (by simp))
            hfree h']
          split <;> rfl

theorem of_step_notFound (hsome : (fs.sight? loc).isSome = true)
    (h : fs.step loc name = .error .notFound) :
    fs.sight? loc = some .directory ∧ Plain name ∧ name.utf8ByteSize ≤ nameLimit ∧
      fs.sight? (loc ++ [name]) = none := by
  rw [step_eq] at h
  cases hloc : fs.sight? loc with
  | none =>
      rw [hloc] at hsome
      cases hsome
  | some s =>
      rw [hloc] at h
      cases s with
      | file content => cases h
      | directory =>
          simp only at h
          split at h
          · cases h
          · next hdot =>
              split at h
              · cases h
              · next hdots =>
                  split at h
                  · cases h
                  · next hlong =>
                      split at h
                      · cases h
                      · next hfree =>
                          exact ⟨rfl, ⟨hdot, hdots⟩, Nat.not_lt.mp hlong, by simpa using hfree⟩

/-- At the end of a way that is open, a directory was made if there is one. -/
theorem Makes.of_walk (hcheck : checkPath p = .ok ())
    (hwalk : fs.walk (fs.origin p) p.names = .ok loc) {r : Except FileError Unit × FileSystem}
    (h : Makes p fs r) : r.1 = (fs.obstacle loc []).elim (.ok ()) .error := by
  rw [h.of_refused (makeDir_of_walk hcheck hwalk) (by simp) (checkPath_eq_ok.mp hcheck).2, obstacle]
  cases hdir : fs.isDir p with
  | true =>
      obtain ⟨_, hwalk', hsight⟩ := walk_of_isDir hdir
      rw [hwalk] at hwalk'
      cases hwalk'
      rw [hsight]
      rfl
  | false =>
      have hnot : fs.sight? loc ≠ some .directory := by
        intro hsight
        rw [isDir_of_walk hcheck hwalk hsight] at hdir
        cases hdir
      cases hsight : fs.sight? loc with
      | none => rfl
      | some s =>
          cases s with
          | file content => rfl
          | directory => exact absurd hsight hnot

/-- Whether a grounded directory can be made is decided by the first obstacle on the way. -/
theorem Makes.result (hground : fs.Grounded p) (hcheck : checkPath p = .ok ())
    (hspare : p.components = p.names) {r : Except FileError Unit × FileSystem}
    (h : Makes p fs r) (back : List String) :
    ∀ {front : List String} {loc : Location}, p.names = front ++ back →
      fs.walk (fs.origin p) front = .ok loc →
      r.1 = (fs.obstacle loc back).elim (.ok ()) .error := by
  have htext := (checkPath_eq_ok.mp hcheck).2
  have hsome : (fs.sight? (fs.origin p)).isSome = true := by
    rw [hground.origin]
    rfl
  -- `front` is the part of the path that was followed, up to `loc`
  induction back with
  | nil =>
      intro front loc hnames hfront
      rw [List.append_nil] at hnames
      rw [← hnames] at hfront
      exact h.of_walk hcheck hfront
  | cons name rest ih =>
      intro front loc hnames hfront
      rw [obstacle]
      cases hstep : fs.step loc name with
      | ok next =>
          refine @ih (front ++ [name]) next (by simpa using hnames) ?_
          exact walk_append_eq_ok.mpr ⟨loc, hfront, by rw [walk_singleton, hstep]⟩
      | error e =>
          by_cases hmissing : e = .notFound
          · subst hmissing
            obtain ⟨hdir, hplain, hshort, hfree⟩ :=
              of_step_notFound (isSome_of_walk hsome hfront) hstep
            refine Makes.of_missing hdir hplain hshort hfree hcheck hspare hnames hfront ?_ h
            refine plain_behind hstep ?_ ?_
            · intro hdot
              refine p.spare_components.tail ?_
              rw [hspare, hnames]
              cases front with
              | nil => exact hdot
              | cons _ front => exact List.mem_append_right _ (List.mem_cons_of_mem _ hdot)
            · intro down up hsplit
              obtain ⟨loc', hwalk, _⟩ := hground.up (front ++ down) up (by rw [hnames, hsplit,
                List.append_assoc])
              obtain ⟨_, hfront', hdown⟩ := walk_append_eq_ok.mp hwalk
              rw [hfront] at hfront'
              cases hfront'
              exact ⟨loc', hdown⟩
          · rw [h.of_refused (makeDir_of_blocked hcheck hnames hfront hstep fun _ => hmissing)
              hmissing htext, not_isDir_of_blocked hnames hfront hstep]
            cases e with
            | notFound => exact absurd rfl hmissing
            | _ => rfl

end Making

/-! ## Obstacles in later trees -/

theorem tooLong_cons (name : String) (rest : List String) :
    tooLong (name :: rest) =
      if nameLimit < name.utf8ByteSize then some .nameTooLong else tooLong rest := by
  by_cases hlong : nameLimit < name.utf8ByteSize <;> simp [tooLong, hlong]

/-- Over directories that were made, only a name that is too long is an obstacle. -/
theorem obstacle_of_made {fs : FileSystem} {rest : List String} :
    ∀ {loc : Location}, fs.sight? loc = some .directory → (∀ n ∈ rest, Plain n) →
      (∀ front, front <+: rest → fs.content? (loc ++ front) = none) →
      fs.obstacle loc rest = tooLong rest := by
  induction rest with
  | nil =>
      intro loc hdir _ _
      rw [obstacle, hdir]
      rfl
  | cons name rest ih =>
      intro loc hdir hall hfiles
      rw [obstacle, step_plain (hall name List.mem_cons_self) hdir, tooLong_cons]
      by_cases hlong : nameLimit < name.utf8ByteSize
      · rw [if_pos hlong, if_pos hlong]
      · rw [if_neg hlong, if_neg hlong]
        cases hnext : fs.sight? (loc ++ [name]) with
        | none => rfl
        | some s =>
            cases s with
            | file content =>
                have hnone := hfiles [name] ⟨rest, rfl⟩
                rw [content?_eq_some.mpr hnext] at hnone
                cases hnone
            | directory =>
                refine ih hnext (fun n hn => hall n (List.mem_cons_of_mem _ hn)) ?_
                intro front hfront
                rw [List.append_assoc]
                exact hfiles (name :: front) (List.cons_prefix_cons.mpr ⟨rfl, hfront⟩)

/-- Over a name that was missing, and may have been made since, only a name that is too long
is an obstacle. -/
theorem obstacle_over_missing {before fs : FileSystem} {loc : Location} {name : String}
    {rest : List String} (hdir : fs.sight? loc = some .directory)
    (hshort : name.utf8ByteSize ≤ nameLimit) (hall : ∀ n ∈ name :: rest, Plain n)
    (hmissing : before.sight? (loc ++ [name]) = none)
    (hfiles : ∀ front, front <+: name :: rest →
      fs.content? (loc ++ front) = before.content? (loc ++ front)) :
    fs.obstacle loc (name :: rest) = tooLong rest := by
  -- no file was there on the way, so none is there now
  have hnone : ∀ front, front <+: rest → fs.content? (loc ++ name :: front) = none := by
    intro front hfront
    rw [hfiles _ (List.cons_prefix_cons.mpr ⟨rfl, hfront⟩)]
    exact content?_of_missing hmissing front
  rw [obstacle, step_plain (hall name List.mem_cons_self) hdir, if_neg (Nat.not_lt.mpr hshort)]
  cases hthere : fs.sight? (loc ++ [name]) with
  | none => rfl
  | some s =>
      cases s with
      | file content =>
          have hfile := hnone [] List.nil_prefix
          rw [content?_eq_some.mpr hthere] at hfile
          cases hfile
      | directory =>
          refine obstacle_of_made hthere (fun n hn => hall n (List.mem_cons_of_mem _ hn)) ?_
          intro front hfront
          rw [List.append_assoc, List.singleton_append]
          exact hnone front hfront

/-- Directories that were made on the way are no obstacle, and remove none. -/
theorem obstacle_later {before after : FileSystem} (hlater : Later before after)
    {names : List String} :
    ∀ {loc : Location}, (before.sight? loc).isSome = true → "." ∉ names.tail →
      (∀ front back, names = front ++ ".." :: back → ∃ loc', before.walk loc front = .ok loc') →
      (∀ front, front <+: names →
        after.content? (front.foldl Location.enter loc) =
          before.content? (front.foldl Location.enter loc)) →
      after.obstacle loc names = before.obstacle loc names := by
  induction names with
  | nil =>
      intro loc hsome _ _ hfiles
      rw [obstacle, obstacle, hlater.sight? hsome (hfiles [] List.prefix_rfl)]
  | cons name rest ih =>
      intro loc hsome htail hup hfiles
      rw [List.tail_cons] at htail
      -- over a name that both trees follow, the way goes on alike
      have hgo {next : Location} (hstep : before.step loc name = .ok next)
          (hnext : (before.sight? next).isSome = true) :
          after.obstacle next rest = before.obstacle next rest := by
        obtain ⟨_, rfl, _⟩ := step_eq_ok.mp hstep
        refine ih hnext (fun h => htail (List.mem_of_mem_tail h)) ?_ ?_
        · intro front back hsplit
          obtain ⟨loc', hwalk⟩ := hup (name :: front) back (by rw [hsplit]; rfl)
          obtain ⟨next, hfirst, hrest⟩ := walk_cons_eq_ok.mp hwalk
          rw [hstep] at hfirst
          cases hfirst
          exact ⟨loc', hrest⟩
        · intro front hfront
          exact hfiles (name :: front) (List.cons_prefix_cons.mpr ⟨rfl, hfront⟩)
      have hloc := hlater.sight? hsome (hfiles [] List.nil_prefix)
      cases hbefore : before.sight? loc with
      | none =>
          rw [hbefore] at hsome
          cases hsome
      | some s =>
          rw [hbefore] at hloc
          cases s with
          | file content =>
              rw [obstacle, obstacle, step_eq, step_eq, hloc, hbefore]
          | directory =>
              by_cases hplain : Plain name
              · have hstep := step_plain hplain hbefore
                have hstep' := step_plain hplain hloc
                by_cases hlong : nameLimit < name.utf8ByteSize
                · rw [if_pos hlong] at hstep hstep'
                  rw [obstacle, obstacle, hstep, hstep']
                · rw [if_neg hlong] at hstep hstep'
                  cases hthere : before.sight? (loc ++ [name]) with
                  | some s =>
                      have hnext : (before.sight? (loc ++ [name])).isSome = true := by
                        rw [hthere]
                        rfl
                      have hcontent := hfiles [name] (List.prefix_append [name] rest)
                      rw [enter_plain (by simpa using hplain)] at hcontent
                      rw [if_pos hnext] at hstep
                      rw [hlater.sight? hnext hcontent, if_pos hnext] at hstep'
                      rw [obstacle, obstacle, hstep, hstep']
                      exact hgo hstep hnext
                  | none =>
                      rw [hthere] at hstep
                      have hall : ∀ n ∈ name :: rest, Plain n :=
                        List.forall_mem_cons.mpr ⟨hplain, plain_behind hstep htail hup⟩
                      have hshort := Nat.not_lt.mp hlong
                      rw [obstacle_over_missing hbefore hshort hall hthere fun _ _ => rfl,
                        obstacle_over_missing hloc hshort hall hthere]
                      intro front hfront
                      have hcontent := hfiles front hfront
                      rwa [enter_plain fun n hn => hall n (hfront.subset hn)] at hcontent
              · obtain ⟨hstep, hnext⟩ := step_not_plain hplain hbefore
                obtain ⟨hstep', _⟩ := step_not_plain hplain hloc
                rw [obstacle, obstacle, hstep, hstep']
                exact hgo hstep hnext

/-- Whether a grounded directory can be made does not hang on the directories that were made
since. -/
theorem makeDirs_later {before after : FileSystem} {p : Path} (hground : before.Grounded p)
    (hspare : p.components = p.names) (hlater : Later before after)
    (hfiles : ∀ loc ∈ before.wayTo p, after.content? loc = before.content? loc) :
    (after.makeDirs p).1 = (before.makeDirs p).1 := by
  by_cases htext : p.text = ""
  · rw [makeDirs, makeDirs, makeDirsWithin_eq, makeDirsWithin_eq, if_pos htext, if_pos htext]
  · cases hcheck : checkPath p with
    | error e =>
        have hnul : '\x00' ∈ p.text.toList := by
          by_contra hnul
          rw [checkPath_eq_ok.mpr ⟨hnul, htext⟩] at hcheck
          cases hcheck
        have hrefused (fs : FileSystem) : (fs.makeDirs p).1 = .error .nulInName := by
          have hmade : fs.makeDir p = .error .nulInName := by
            simp [makeDir, locateParent, checkPath, hnul, bind, Except.bind]
          rw [(makes_makeDirs fs p).of_refused hmade (by simp) htext]
          cases hdir : fs.isDir p with
          | false => rfl
          | true =>
              rw [(walk_of_isDir hdir).1] at hcheck
              cases hcheck
        rw [hrefused, hrefused]
    | ok u =>
        have hbefore := (makes_makeDirs before p).result hground hcheck hspare p.names
          (List.nil_append _).symm rfl
        have hafter := (makes_makeDirs after p).result (hground.later hlater) hcheck hspare
          p.names (List.nil_append _).symm rfl
        rw [hbefore, hafter]
        have horigin : after.origin p = before.origin p := by
          rw [origin, origin, hlater.cwd]
        rw [horigin, obstacle_later hlater]
        · rw [hground.origin]
          rfl
        · rw [← hspare]
          exact p.spare_components.tail
        · intro front back hsplit
          obtain ⟨loc, hwalk, _⟩ := hground.up front back hsplit
          exact ⟨loc, hwalk⟩
        · rintro front ⟨back, hsplit⟩
          exact hfiles _ ⟨front, back, hsplit.symm, rfl⟩

end FileSystem

end Intake.Files
