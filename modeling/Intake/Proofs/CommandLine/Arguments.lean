import Intake.CommandLine.Arguments
import Intake.Proofs.Attempts

/-!
# Options that no argument gives

An option is given under its name by the arguments that are written with this name, and by a letter
if it has one. So reading gives nothing for an option without a letter whose name no argument is
written with; and what follows a command are some of the arguments.
-/

namespace Intake.CommandLine

variable {name : String} {s : Spec} {given : Given} {p p' : Progress} {place : Place}

/-- Whether an argument is written with the name of an option, with a value or without one. -/
def Writes (arg name : String) : Prop :=
  arg = "--" ++ name ∨ ∃ value, arg = "--" ++ name ++ "=" ++ value

/-- An argument is written with what stands between the dashes and the first equals sign. -/
theorem writes_of_takeWhile {arg : String} {cs : List Char} (harg : arg.toList = '-' :: '-' :: cs) :
    Writes arg (String.ofList (cs.takeWhile (· ≠ '='))) := by
  have hsplit : cs = cs.takeWhile (· ≠ '=') ++ cs.dropWhile (· ≠ '=') :=
    List.takeWhile_append_dropWhile.symm
  cases hrest : cs.dropWhile (· ≠ '=') with
  | nil =>
      left
      rw [hrest, List.append_nil] at hsplit
      rw [← String.toList_inj, String.toList_append, harg, ← hsplit]
      show _ = '-' :: '-' :: (String.ofList cs).toList
      rw [String.toList_ofList]
  | cons c value =>
      right
      have hc : c = '=' := by
        have hhead := List.head?_dropWhile_not (· ≠ '=') cs
        rw [hrest] at hhead
        simpa using hhead
      refine ⟨String.ofList value, ?_⟩
      rw [← String.toList_inj, String.toList_append, String.toList_append, String.toList_append,
        String.toList_ofList, String.toList_ofList, harg]
      conv_lhs => rw [hsplit, hrest, hc]
      simp

/-! ## Reading -/

/-- Whether nothing was read for an option so far. -/
structure Progress.Omits (p : Progress) (name : String) : Prop where
  given : p.given.lookup name = none
  last : ∀ s value, p.last = some (s, value) → s.name ≠ name

namespace Progress

theorem omits_start (name : String) : start.Omits name where
  given := rfl
  last _ _ h := nomatch h

theorem lookup_accept {value : String} {given' : Given} (hname : s.name ≠ name)
    (hgiven : given.lookup name = none) (h : accept given s value = .ok given') :
    given'.lookup name = none := by
  unfold accept at h
  split at h
  · cases h
  · cases h
    have hne : (name == s.name) = false := by
      rw [beq_eq_false_iff_ne]
      exact hname.symm
    simp [List.lookup_append, hgiven, List.lookup_cons, hne]

theorem Omits.settle (hp : p.Omits name) (h : p.settle = .ok given) :
    given.lookup name = none := by
  unfold Progress.settle at h
  split at h
  · cases h
    exact hp.given
  · cases h
  · next s value hlast => exact lookup_accept (hp.last s _ hlast) hp.given h

theorem omits_of_lookup (h : given.lookup name = none) : Omits ⟨given, none⟩ name where
  given := h
  last _ _ h := nomatch h

theorem Omits.turnOn (hname : s.name ≠ name) (hp : p.Omits name) (h : p.turnOn s = .ok p') :
    p'.Omits name := by
  obtain ⟨settled, hsettle, h⟩ := bind_eq_ok.mp h
  obtain ⟨given, haccept, h⟩ := bind_eq_ok.mp h
  cases h
  exact omits_of_lookup (lookup_accept hname (hp.settle hsettle) haccept)

theorem Omits.attach {value : String} (hname : s.name ≠ name) (hp : p.Omits name)
    (h : p.attach s value = .ok p') : p'.Omits name := by
  obtain ⟨settled, hsettle, h⟩ := bind_eq_ok.mp h
  obtain ⟨given, haccept, h⟩ := bind_eq_ok.mp h
  cases h
  exact omits_of_lookup (lookup_accept hname (hp.settle hsettle) haccept)

theorem Omits.await (hname : s.name ≠ name) (hp : p.Omits name) (h : p.await s = .ok p') :
    p'.Omits name := by
  obtain ⟨settled, hsettle, h⟩ := bind_eq_ok.mp h
  cases h
  refine ⟨hp.settle hsettle, ?_⟩
  rintro _ _ hlast
  cases hlast
  exact hname

theorem ask_ne_ok {α : Type} {a : α} : p.ask ≠ .ok a := by
  intro h
  obtain ⟨_, _, h⟩ := bind_eq_ok.mp h
  cases h

end Progress

namespace Place

open Progress

theorem omits_long {cs : List Char} (hname : String.ofList (cs.takeWhile (· ≠ '=')) ≠ name)
    (hp : p.Omits name) (h : place.long p cs = .ok p') : p'.Omits name := by
  have hfound {s : Spec}
      (hs : place.options.find? (fun s => s.name == String.ofList (cs.takeWhile (· ≠ '='))) =
        some s) : s.name ≠ name := by
    have hmatch := List.find?_some hs
    rw [beq_iff_eq] at hmatch
    rwa [hmatch]
  unfold long at h
  simp only at h
  split at h
  · next s value hs _ =>
      split at h
      · cases h
      · exact hp.attach (hfound hs) h
  · next s hs _ =>
      split at h
      · exact hp.turnOn (hfound hs) h
      · exact hp.await (hfound hs) h
  · cases h
  · split at h
    · exact absurd h ask_ne_ok
    · cases h

/-- Whether an option can only be written with its name. -/
def Unlettered (place : Place) (name : String) : Prop :=
  ∀ s ∈ place.options, s.letter.isSome → s.name ≠ name

theorem omits_short (hplace : place.Unlettered name) {cs : List Char} (hp : p.Omits name)
    (h : place.short p cs = .ok p') : p'.Omits name := by
  induction cs generalizing p with
  | nil =>
      cases h
      exact hp
  | cons c rest ih =>
      rw [short] at h
      split at h
      · next s hs =>
          obtain ⟨turned, hturn, h⟩ := bind_eq_ok.mp h
          have hletter : s.letter = some c := by simpa using List.find?_some hs
          have hname := hplace s (List.mem_of_find?_eq_some hs) (hletter ▸ rfl)
          exact ih (hp.turnOn hname hturn) h
      · split at h
        · exact absurd h ask_ne_ok
        · cases h

/-- Whether nothing was read for an option up to an end, before which all arguments were read that
do not follow a command. -/
def End.Omits (name : String) (args : List String) : End → Prop
  | .done p => p.Omits name
  | .verb p _ rest => p.Omits name ∧ rest ⊆ args

theorem End.Omits.cons {arg : String} {args : List String} {ending : End}
    (h : ending.Omits name args) : ending.Omits name (arg :: args) := by
  cases ending with
  | done p => exact h
  | verb p verb rest => exact ⟨h.1, List.subset_cons_of_subset arg h.2⟩

/-- Reading gives nothing for an option with whose name no argument is written. -/
theorem omits_read (hplace : place.Unlettered name) {args : List String} {ending : End}
    (hargs : ∀ arg ∈ args, ¬Writes arg name) (hp : p.Omits name)
    (h : place.read p args = .ok ending) : ending.Omits name args := by
  induction args generalizing p with
  | nil =>
      cases h
      exact hp
  | cons arg rest ih =>
      obtain ⟨harg, hrest⟩ := List.forall_mem_cons.mp hargs
      rw [read] at h
      split at h
      · next s hlast =>
          split at h
          · cases h
          · have hp' : Omits ⟨p.given, some (s, some arg)⟩ name := by
              refine ⟨hp.given, ?_⟩
              rintro _ _ hsame
              cases hsame
              exact hp.last s none hlast
            exact (ih hrest hp' h).cons
      · split at h
        · cases h
          exact hp
        · cases h
      · next long _ hcs _ =>
          obtain ⟨next, hlong, h⟩ := bind_eq_ok.mp h
          refine (ih hrest (omits_long ?_ hp hlong) h).cons
          rintro rfl
          exact harg (writes_of_takeWhile hcs)
      · obtain ⟨next, hshort, h⟩ := bind_eq_ok.mp h
        exact (ih hrest (omits_short hplace hp hshort) h).cons
      · split at h
        · cases h
          exact ⟨hp, List.subset_cons_self arg rest⟩
        · cases h

end Place

end Intake.CommandLine
