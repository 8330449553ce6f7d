import Intake.Dump.Content
import Intake.Dump.Writer
import Intake.Proofs.Text.Ends
import Mathlib.Data.List.Induction

/-!
# Written elements are read as they were written

A text that was escaped has no markup in it and is given back by the references in it. The
marks of an element are its start, the marks of what is in it and its stop, so the marks of
a dump follow from the way in which its elements are put together.
-/

namespace Intake.Dump

open Text (dropEndWhile dropEndWhile_eq)

/-! ## Escaped texts -/

theorem escape_cons (c : Char) (cs : List Char) : escape (c :: cs) = escapeChar c ++ escape cs :=
  List.flatMap_cons

theorem escape_concat (cs : List Char) (c : Char) :
    escape (cs ++ [c]) = escape cs ++ escapeChar c := by
  rw [escape, List.flatMap_append, List.flatMap_singleton]
  rfl

/-- What is written for a character: a reference, or the character itself. -/
theorem escapeChar_cases (c : Char) :
    (∃ name, escapeChar c = '&' :: (name ++ [';']) ∧ '&' ∉ name ∧ ';' ∉ name ∧ '<' ∉ name ∧
      resolve name = some c ∧ isBlank c = false) ∨
      escapeChar c = [c] ∧ c ≠ '<' ∧ c ≠ '&' := by
  rw [escapeChar]
  by_cases hless : c = '<'
  · subst hless
    exact Or.inl ⟨['l', 't'], by decide⟩
  · rw [if_neg hless]
    by_cases hgreater : c = '>'
    · subst hgreater
      exact Or.inl ⟨['g', 't'], by decide⟩
    · rw [if_neg hgreater]
      by_cases hamp : c = '&'
      · subst hamp
        exact Or.inl ⟨['a', 'm', 'p'], by decide⟩
      · rw [if_neg hamp]
        exact Or.inr ⟨rfl, hless, hamp⟩

theorem less_notMem_escape (cs : List Char) : '<' ∉ escape cs := by
  induction cs with
  | nil => exact List.not_mem_nil
  | cons c rest ih =>
      rw [escape_cons, List.mem_append]
      rintro (h | h)
      · rcases escapeChar_cases c with ⟨name, heq, _, _, hname, _⟩ | ⟨heq, hc, _⟩
        · rw [heq] at h
          simp [hname] at h
        · rw [heq, List.mem_singleton] at h
          exact hc h.symm
      · exact ih h

theorem escape_eq_nil {cs : List Char} : escape cs = [] ↔ cs = [] := by
  cases cs with
  | nil => exact Iff.rfl
  | cons c rest =>
      rw [escape_cons]
      rcases escapeChar_cases c with ⟨name, heq, _⟩ | ⟨heq, _⟩ <;> simp [heq]

/-- A reference is read up to its semicolon. -/
theorem unescapeFrom_name {name : List Char} (hamp : '&' ∉ name) (hsemicolon : ';' ∉ name)
    (before rest : List Char) :
    unescapeFrom (some before) (name ++ rest) =
      unescapeFrom (some (name.reverse ++ before)) rest := by
  induction name generalizing before with
  | nil => rfl
  | cons c name ih =>
      rw [List.mem_cons, not_or] at hamp hsemicolon
      rw [List.cons_append, unescapeFrom, if_neg (Ne.symm hsemicolon.1),
        if_neg (Ne.symm hamp.1), ih hamp.2 hsemicolon.2, List.reverse_cons, List.append_assoc]
      rfl

theorem unescape_escapeChar (c : Char) (rest : List Char) :
    unescape (escapeChar c ++ rest) = (unescape rest).map (c :: ·) := by
  rw [unescape, unescape]
  rcases escapeChar_cases c with ⟨name, heq, hamp, hsemicolon, _, hresolve, _⟩ | ⟨heq, _, hamp⟩
  · rw [heq, List.cons_append, unescapeFrom, if_pos rfl, List.append_assoc,
      unescapeFrom_name hamp hsemicolon, List.singleton_append, unescapeFrom, if_pos rfl,
      List.append_nil, List.reverse_reverse, hresolve]
  · rw [heq, List.singleton_append, unescapeFrom, if_neg hamp]

/-- Escaping is undone by replacing the references. -/
theorem unescape_escape (cs : List Char) : unescape (escape cs) = some cs := by
  induction cs with
  | nil => rfl
  | cons c rest ih =>
      rw [escape_cons, unescape_escapeChar, ih]
      rfl

/-! ## Blanks at the ends -/

/-- A text without the blanks at its two ends. -/
def trimmed (cs : List Char) : List Char := dropEndWhile isBlank (cs.dropWhile isBlank)

/-- Blanks are written as they are, and nothing else is written with a blank at an end. -/
theorem dropWhile_escape (cs : List Char) :
    (escape cs).dropWhile isBlank = escape (cs.dropWhile isBlank) := by
  induction cs with
  | nil => rfl
  | cons c rest ih =>
      rw [escape_cons]
      rcases escapeChar_cases c with ⟨name, heq, _, _, _, _, hblank⟩ | ⟨heq, _⟩
      · rw [heq, List.cons_append, List.dropWhile_cons_of_neg (by decide),
          List.dropWhile_cons_of_neg (by rw [hblank]; decide), escape_cons, heq,
          List.cons_append]
      · rw [heq, List.singleton_append]
        by_cases hblank : isBlank c = true
        · rw [List.dropWhile_cons_of_pos hblank, List.dropWhile_cons_of_pos hblank, ih]
        · rw [List.dropWhile_cons_of_neg hblank, List.dropWhile_cons_of_neg hblank, escape_cons,
            heq, List.singleton_append]

theorem dropEndWhile_escape (cs : List Char) :
    dropEndWhile isBlank (escape cs) = escape (dropEndWhile isBlank cs) := by
  rw [dropEndWhile_eq, dropEndWhile_eq]
  induction cs using List.reverseRecOn with
  | nil => rfl
  | append_singleton cs c ih =>
      rw [escape_concat]
      rcases escapeChar_cases c with ⟨name, heq, _, _, _, _, hblank⟩ | ⟨heq, _⟩
      · rw [heq, ← List.cons_append, ← List.append_assoc,
          List.rdropWhile_concat_neg _ _ _ (by decide),
          List.rdropWhile_concat_neg _ _ _ (by rw [hblank]; decide), escape_concat, heq,
          List.append_assoc, List.cons_append]
      · rw [heq]
        by_cases hblank : isBlank c = true
        · rw [List.rdropWhile_concat_pos _ _ _ hblank, List.rdropWhile_concat_pos _ _ _ hblank, ih]
        · rw [List.rdropWhile_concat_neg _ _ _ hblank, List.rdropWhile_concat_neg _ _ _ hblank,
            escape_concat, heq]

/-! ## Marks -/

/-- Whether markup or nothing begins here, so that a text before it ends. -/
def EndsText (rest : List Char) : Prop := rest = [] ∨ ∃ more, rest = '<' :: more

/-- Whether these characters, standing where a text may begin, give these marks. -/
def Marked (cs : List Char) (ms : List Mark) : Prop :=
  ∀ opened rest, EndsText rest →
    marksFrom opened (.text []) (cs ++ rest) = ms ++ marksFrom opened (.text []) rest

theorem marksFrom_text {cs : List Char} (h : '<' ∉ cs) (opened : List (List Char))
    (before rest : List Char) :
    marksFrom opened (.text before) (cs ++ rest) =
      marksFrom opened (.text (cs.reverse ++ before)) rest := by
  induction cs generalizing before with
  | nil => rfl
  | cons c cs ih =>
      rw [List.mem_cons, not_or] at h
      rw [List.cons_append, marksFrom, if_neg (Ne.symm h.1), ih h.2, List.reverse_cons,
        List.append_assoc]
      rfl

theorem marked_text {cs : List Char} (h : '<' ∉ cs) : Marked cs (textMark cs.reverse) := by
  intro opened rest hrest
  rw [marksFrom_text h, List.append_nil]
  rcases hrest with rfl | ⟨more, rfl⟩
  · simp [marksFrom, textMark]
  · rw [marksFrom, if_pos rfl, marksFrom, if_pos rfl]
    rfl

theorem Marked.append {cs ds : List Char} {ms ns : List Mark} (h : Marked cs ms)
    (h' : Marked ds ns) (hds : EndsText ds) : Marked (cs ++ ds) (ms ++ ns) := by
  intro opened rest hrest
  have hend : EndsText (ds ++ rest) := by
    rcases hds with rfl | ⟨more, rfl⟩
    · exact hrest
    · exact Or.inr ⟨more ++ rest, rfl⟩
  rw [List.append_assoc, h opened _ hend, h' opened _ hrest, List.append_assoc]

theorem marksFrom_piece {cs : List Char} (h : '>' ∉ cs) (opened : List (List Char))
    (before rest : List Char) :
    marksFrom opened (.piece before) (cs ++ rest) =
      marksFrom opened (.piece (cs.reverse ++ before)) rest := by
  induction cs generalizing before with
  | nil => rfl
  | cons c cs ih =>
      rw [List.mem_cons, not_or] at h
      rw [List.cons_append, marksFrom, if_neg (by simp [Ne.symm h.1]), ih h.2,
        List.reverse_cons, List.append_assoc]
      rfl

/-- A piece of markup gives its marks and opens or closes what it does. -/
theorem marksFrom_markup {cs : List Char} {ms : List Mark} {opened opened' : List (List Char)}
    (hbare : '>' ∉ cs) (hcomplete : isComplete cs = true)
    (hmarks : pieceMarks opened cs = .ok (ms, opened')) (rest : List Char) :
    marksFrom opened (.text []) ('<' :: (cs ++ '>' :: rest)) =
      ms ++ marksFrom opened' (.text []) rest := by
  rw [marksFrom, if_pos rfl, marksFrom_piece hbare, marksFrom, List.append_nil,
    List.reverse_reverse, hcomplete, if_pos (by decide), hmarks]
  rfl

/-- Whether a name can stand in tags. -/
structure TagName (name : List Char) : Prop where
  bare : '>' ∉ name
  start : isComplete name = true
  starts : ∀ opened, pieceMarks opened name = .ok ([.start name []], name :: opened)
  stop : isComplete ('/' :: name) = true
  stops : ∀ opened, pieceMarks (name :: opened) ('/' :: name) = .ok ([.stop], opened)
  single : isComplete (name ++ ['/']) = true
  singles : ∀ opened, pieceMarks opened (name ++ ['/']) = .ok ([.start name [], .stop], opened)

theorem tagName_text : TagName "text".toList :=
  ⟨by decide, rfl, fun _ => rfl, rfl, fun _ => rfl, rfl, fun _ => rfl⟩

theorem tagName_message : TagName "message".toList :=
  ⟨by decide, rfl, fun _ => rfl, rfl, fun _ => rfl, rfl, fun _ => rfl⟩

theorem tagName_messages : TagName "messages".toList :=
  ⟨by decide, rfl, fun _ => rfl, rfl, fun _ => rfl, rfl, fun _ => rfl⟩

theorem endsText_element (name content : List Char) : EndsText (element name content) := by
  rw [element]
  split <;> exact Or.inr ⟨_, rfl⟩

/-- The marks of an element: its start, those of its content, its stop. -/
theorem marked_element {name content : List Char} {ms : List Mark} (hname : TagName name)
    (hcontent : Marked content ms) :
    Marked (element name content) (.start name [] :: (ms ++ [.stop])) := by
  intro opened rest _
  rw [element]
  split
  · next hempty =>
      rw [List.isEmpty_iff] at hempty
      subst hempty
      have hnone : ms = [] := by
        have h := hcontent [] [] (Or.inl rfl)
        rw [List.append_nil] at h
        exact List.self_eq_append_left.mp h
      have hbare : '>' ∉ name ++ ['/'] := by simp [hname.bare]
      rw [hnone, show '<' :: (name ++ ['/', '>']) ++ rest =
        '<' :: ((name ++ ['/']) ++ '>' :: rest) by simp]
      exact marksFrom_markup hbare hname.single (hname.singles opened) rest
  · rw [show '<' :: (name ++ '>' :: (content ++ '<' :: '/' :: (name ++ ['>']))) ++ rest =
      '<' :: (name ++ '>' :: (content ++ '<' :: (('/' :: name) ++ '>' :: rest))) by simp]
    rw [marksFrom_markup hname.bare hname.start (hname.starts opened),
      hcontent _ _ (Or.inr ⟨_, rfl⟩),
      marksFrom_markup (by simp [hname.bare]) hname.stop (hname.stops opened)]
    simp

end Intake.Dump
