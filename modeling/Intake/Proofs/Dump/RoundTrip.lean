import Intake.Dump.Reader
import Intake.Proofs.Dump.Elements
import Mathlib.Data.List.Forall2

/-!
# Dumps are read as they were written

A dump that was written is read, and gives one text for each that was written, in their
order. The reader drops the blanks of markup at the two ends of a text; all else is given
back character for character.
-/

namespace Intake.Dump

open Text (dropEndWhile_eq exists_dropEndWhile getLast?_dropEndWhile head?_dropEndWhile
  head?_dropWhile)

/-! ## Items -/

/-- The items of marks, where a text may begin in front of them. -/
def itemsOf (ms : List Mark) : List Item := gather (trimStarts true ms)

theorem itemsOf_start (name attributes : List Char) (ms : List Mark) :
    itemsOf (.start name attributes :: ms) = .start name attributes :: itemsOf ms := rfl

theorem itemsOf_stop (ms : List Mark) : itemsOf (.stop :: ms) = .stop :: itemsOf ms := rfl

/-- Blanks in front of a tag give no item. -/
theorem itemsOf_blanks {raw : List Char} (h : ∀ c ∈ raw, isBlank c = true) (ms : List Mark) :
    itemsOf (.text raw :: ms) = itemsOf ms := by
  rw [itemsOf, trimStarts, if_pos rfl, List.dropWhile_eq_nil_iff.mpr h]
  rfl

/-- The item of a text between two tags, if it has any but blanks. -/
def textItem (raw : List Char) : List Item :=
  if (raw.dropWhile isBlank).isEmpty then [] else [.text (unescape (trimmed raw))]

theorem itemsOf_text (raw : List Char) (ms : List Mark) :
    itemsOf (.text raw :: .stop :: ms) = textItem raw ++ itemsOf (.stop :: ms) := by
  rw [itemsOf, trimStarts, if_pos rfl, textItem]
  by_cases h : (raw.dropWhile isBlank).isEmpty = true
  · simp only [if_pos h]
    rfl
  · simp only [if_neg h]
    rfl

/-- The marks of a message in a dump. -/
def messageMarks (text : String) : List Mark :=
  [.start "message".toList [], .start "text".toList []] ++
    textMark (escape text.toList).reverse ++ [.stop, .stop]

/-- The items of a message in a dump. -/
def messageItems (text : String) : List Item :=
  [.start "message".toList [], .start "text".toList []] ++
    (if trimmed text.toList = [] then [] else [.text (some (trimmed text.toList))]) ++
    [.stop, .stop]

theorem trimmed_escape (cs : List Char) : trimmed (escape cs) = escape (trimmed cs) := by
  rw [trimmed, dropWhile_escape, dropEndWhile_escape]
  rfl

/-- What is left of a text without blanks at its ends is nothing only if it is all blanks. -/
theorem trimmed_eq_nil {cs : List Char} : trimmed cs = [] ↔ cs.dropWhile isBlank = [] := by
  rw [trimmed, dropEndWhile_eq, List.rdropWhile_eq_nil_iff]
  constructor
  · intro h
    cases hcs : cs.dropWhile isBlank with
    | nil => rfl
    | cons c rest =>
        have hfirst := List.head_dropWhile_not isBlank (l := cs) (by rw [hcs]; simp)
        simp only [hcs, List.head_cons] at hfirst
        rw [hcs] at h
        rw [h c List.mem_cons_self] at hfirst
        cases hfirst
  · intro h c hc
    rw [h] at hc
    cases hc

theorem textItem_escape (cs : List Char) :
    textItem (escape cs) = if trimmed cs = [] then [] else [.text (some (trimmed cs))] := by
  rw [textItem, trimmed_escape, unescape_escape, dropWhile_escape]
  by_cases h : trimmed cs = []
  · rw [if_pos h, trimmed_eq_nil.mp h]
    rfl
  · have hne : escape (cs.dropWhile isBlank) ≠ [] :=
      fun heq => h (trimmed_eq_nil.mpr (escape_eq_nil.mp heq))
    rw [if_neg h, if_neg (by simpa using hne)]

theorem itemsOf_messageMarks (text : String) (ms : List Mark) :
    itemsOf (messageMarks text ++ ms) = messageItems text ++ itemsOf ms := by
  have htext : itemsOf (textMark (escape text.toList).reverse ++ .stop :: .stop :: ms) =
      (if trimmed text.toList = [] then [] else [.text (some (trimmed text.toList))]) ++
        itemsOf (.stop :: .stop :: ms) := by
    rw [textMark, List.reverse_reverse, ← textItem_escape]
    split
    · next hempty =>
        rw [List.isEmpty_iff, List.reverse_eq_nil_iff] at hempty
        rw [hempty]
        rfl
    · exact itemsOf_text _ _
  rw [messageMarks, messageItems]
  simp only [List.append_assoc, List.cons_append, List.nil_append, itemsOf_start, htext,
    itemsOf_stop]

theorem itemsOf_flatMap (texts : List String) (ms : List Mark) :
    itemsOf (texts.flatMap messageMarks ++ ms) =
      texts.flatMap messageItems ++ itemsOf ms := by
  induction texts with
  | nil => rfl
  | cons text rest ih =>
      rw [List.flatMap_cons, List.flatMap_cons, List.append_assoc, itemsOf_messageMarks, ih,
        List.append_assoc]

/-! ## The marks of a dump -/

theorem marked_messageElement (text : String) :
    Marked (messageElement text) (messageMarks text) := by
  have htext := marked_element tagName_text (marked_text (less_notMem_escape text.toList))
  have hmessage := marked_element tagName_message htext
  rw [messageElement, messageMarks]
  simpa using hmessage

theorem marked_flatMap (texts : List String) :
    Marked (texts.flatMap messageElement) (texts.flatMap messageMarks) ∧
      EndsText (texts.flatMap messageElement) := by
  induction texts with
  | nil => exact ⟨fun _ _ _ => rfl, Or.inl rfl⟩
  | cons text rest ih =>
      refine ⟨(marked_messageElement text).append ih.1 ih.2, ?_⟩
      rcases endsText_element "message".toList
        (element "text".toList (escape text.toList)) with h | ⟨more, h⟩
      · rw [List.flatMap_cons, messageElement, h]
        exact ih.2
      · rw [List.flatMap_cons, messageElement, h]
        exact Or.inr ⟨_, rfl⟩

theorem toList_write (texts : List String) :
    (write texts).toList = '<' :: ("?xml version=\"1.0\" encoding=\"utf-8\"?".toList ++ '>' ::
      (['\n'] ++ element "messages".toList (texts.flatMap messageElement))) := by
  rw [write, String.toList_append, String.toList_append, String.toList_ofList, declaration]
  simp

/-- The marks of a dump: those of the line feed after the declaration and those of the root. -/
theorem marks_write (texts : List String) :
    marks (write texts).toList =
      .text ['\n'] :: .start "messages".toList [] ::
        (texts.flatMap messageMarks ++ [.stop]) := by
  have hroot := marked_element tagName_messages (marked_flatMap texts).1
  have hline : Marked ['\n'] [.text ['\n']] := marked_text (by decide)
  have hbody := hline.append hroot (endsText_element _ _) [] [] (Or.inl rfl)
  rw [List.append_nil] at hbody
  rw [toList_write]
  change marksFrom [] (.text []) _ = _
  rw [marksFrom_markup (by decide) rfl rfl, hbody]
  simp [marksFrom, textMark]

theorem items_write (texts : List String) :
    items (write texts).toList =
      .start "messages".toList [] :: (texts.flatMap messageItems ++ [.stop]) := by
  rw [items, marks_write]
  change itemsOf _ = _
  have hline : ∀ c ∈ ['\n'], isBlank c = true := fun c hc => List.mem_singleton.mp hc ▸ rfl
  rw [itemsOf_blanks hline, itemsOf_start, itemsOf_flatMap]
  rfl

/-! ## Reading -/

/-- Where the reader can meet a message: at the beginning of the root or after a message. -/
def AwaitsMessage (place : Place) : Prop := place = .root false ∨ place = .list "message".toList

/-- A message that was written is read as its text without blanks at the ends. -/
theorem textsFrom_messageItems {place : Place} (h : AwaitsMessage place) (text : String)
    (rest : List Item) :
    textsFrom place (messageItems text ++ rest) =
      (textsFrom (.list "message".toList) rest).map
        (String.ofList (trimmed text.toList) :: ·) := by
  have hinside : ∀ items, textsFrom place (.start "message".toList [] ::
      .start "text".toList [] :: items) =
        textsFrom (.text "message".toList none) items := by
    intro items
    rcases h with rfl | rfl <;> rfl
  rw [messageItems]
  split
  · next hempty =>
      rw [hempty]
      exact hinside _
  · exact hinside _

theorem textsFrom_flatMap {place : Place} (h : AwaitsMessage place) (texts : List String) :
    textsFrom place (texts.flatMap messageItems ++ [.stop]) =
      .ok (texts.map fun text => String.ofList (trimmed text.toList)) := by
  induction texts generalizing place with
  | nil => rcases h with rfl | rfl <;> rfl
  | cons text rest ih =>
      rw [List.flatMap_cons, List.append_assoc, textsFrom_messageItems h, ih (Or.inr rfl)]
      rfl

/-- Reading what was written gives the texts without the blanks at their ends. -/
theorem read_write (texts : List String) :
    read (write texts) = .ok (texts.map fun text => String.ofList (trimmed text.toList)) := by
  rw [read, items_write]
  exact textsFrom_flatMap (Or.inl rfl) texts

/-! ## What is kept of a text -/

/-- Whether `kept` is all of `text` but the blanks at its two ends. -/
structure Core (text kept : List Char) : Prop where
  parts : ∃ front back, text = front ++ kept ++ back ∧
    (∀ c ∈ front, isBlank c = true) ∧ ∀ c ∈ back, isBlank c = true
  first : ∀ c ∈ kept.head?, isBlank c = false
  last : ∀ c ∈ kept.getLast?, isBlank c = false

theorem core_trimmed (cs : List Char) : Core cs (trimmed cs) where
  parts := by
    obtain ⟨back, hsplit, hback⟩ := exists_dropEndWhile isBlank (cs.dropWhile isBlank)
    refine ⟨cs.takeWhile isBlank, back, ?_, fun c hc => List.mem_takeWhile_imp hc, hback⟩
    rw [List.append_assoc, trimmed, ← hsplit, List.takeWhile_append_dropWhile]
  first := head?_dropEndWhile (head?_dropWhile isBlank cs)
  last := getLast?_dropEndWhile isBlank (cs.dropWhile isBlank)

/-- **Dumps keep texts.** Whatever the texts are, a dump of them is read, and gives as many texts
in the same order, each of which is all of the text that was written but the blanks of markup at
its two ends; a text that has none there is given back as it was. -/
theorem dump_keeps_texts (texts : List String) :
    ∃ kept, read (write texts) = .ok kept ∧
      List.Forall₂ (fun text text' => Core text.toList text'.toList) texts kept := by
  refine ⟨_, read_write texts, ?_⟩
  rw [List.forall₂_map_right_iff, List.forall₂_same]
  intro text _
  rw [String.toList_ofList]
  exact core_trimmed text.toList

/-- A blank at an end of a text is lost, so texts are not always given back as they were. -/
theorem leading_blank_lost : ¬∀ texts : List String, read (write texts) = .ok texts :=
  fun h => absurd (h [" a"]) (by decide +kernel)

end Intake.Dump
