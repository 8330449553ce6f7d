import Intake.Element.Email
import Mathlib.Data.List.Forall2

/-!
# The elements of an email are numbered as one sequence

An email is a list of sections, but its elements are counted as if there were no sections: each
name and each single paragraph is one element, and a body is its paragraphs. The counter that goes
from section to section, and from paragraph to paragraph within a body, gives each element the
identifier of its place in the whole sequence, and changes nothing besides the identifiers.
-/

namespace Intake.Element

/-- An element of an email. -/
inductive Item where
  | name (n : Name)
  | paragraph (p : Paragraph)
  deriving DecidableEq

namespace Item

/-- The text that is hashed. -/
def text : Item → String
  | .name n => n.text
  | .paragraph p => p.text

def core : Item → Core
  | .name n => n.core
  | .paragraph p => p.core

/-- The element under another identifier. -/
def withId (id : Id) : Item → Item
  | .name n => .name { n with core.id := id }
  | .paragraph p => .paragraph { p with core.id := id }

/-- The identifier becomes that of a position. -/
def identify (e : Item) (index : Nat) : Item :=
  e.withId (.fingerprint e.text e.core.origin.page index)

end Item

/-- The elements of a section: a name or a single paragraph itself, or the paragraphs of a body. -/
def Section.items : Section → List Item
  | .name n => [.name n]
  | .text p => [.paragraph p]
  | .body b => b.paragraphs.map .paragraph

/-- The elements of an email. -/
def items (email : List Section) : List Item := email.flatMap Section.items

theorem items_cons (s : Section) (rest : List Section) :
    items (s :: rest) = s.items ++ items rest := List.flatMap_cons

theorem Section.length_items (s : Section) : s.items.length = s.size := by
  cases s with
  | name n => rfl
  | text p => rfl
  | body b => exact List.length_map _

/-! ## Places in the sequence -/

/-- Paragraphs get the identifiers of the positions that they are listed with. -/
theorem numberFrom_eq (ps : List Paragraph) (index : Nat) :
    numberFrom index ps = (ps.zipIdx index).map fun (p, i) => p.identify i := by
  induction ps generalizing index with
  | nil => rfl
  | cons p rest ih => rw [numberFrom, ih, List.zipIdx_cons, List.map_cons]

theorem Section.items_numberFrom (s : Section) (index : Nat) :
    (s.numberFrom index).items = (s.items.zipIdx index).map fun (e, i) => e.identify i := by
  cases s with
  | name n => rfl
  | text p => rfl
  | body b =>
      rw [Section.numberFrom, Section.items, Section.items, numberFrom_eq, List.zipIdx_map,
        List.map_map, List.map_map]
      rfl

/-- The counter goes on from section to section by the elements that it has passed. -/
theorem items_numberSections (email : List Section) (index : Nat) :
    items (numberSections index email) =
      ((items email).zipIdx index).map fun (e, i) => e.identify i := by
  induction email generalizing index with
  | nil => rfl
  | cons s rest ih =>
      rw [numberSections, items_cons, items_cons, ih, s.items_numberFrom, List.zipIdx_append,
        List.map_append, s.length_items]

/-! ## What is left as it was -/

/-- Whether two sections are of the same shape and differ in identifiers at most. -/
inductive SameButIds : Section → Section → Prop
  | name (n : Name) (id : Id) : SameButIds (.name n) (.name { n with core.id := id })
  | text (p : Paragraph) (id : Id) : SameButIds (.text p) (.text { p with core.id := id })
  | body {b c : Body}
      (h : List.Forall₂ (fun p q => ∃ id, q = { p with core.id := id }) b.paragraphs c.paragraphs) :
      SameButIds (.body b) (.body c)

theorem forall₂_numberFrom (ps : List Paragraph) (index : Nat) :
    List.Forall₂ (fun p q => ∃ id, q = { p with core.id := id }) ps (numberFrom index ps) := by
  induction ps generalizing index with
  | nil => exact .nil
  | cons p rest ih => exact .cons ⟨_, rfl⟩ (ih (index + 1))

theorem Section.sameButIds_numberFrom (s : Section) (index : Nat) :
    SameButIds s (s.numberFrom index) := by
  cases s with
  | name n => exact .name n _
  | text p => exact .text p _
  | body b => exact .body (forall₂_numberFrom b.paragraphs index)

theorem forall₂_numberSections (email : List Section) (index : Nat) :
    List.Forall₂ SameButIds email (numberSections index email) := by
  induction email generalizing index with
  | nil => exact .nil
  | cons s rest ih => exact .cons (s.sameButIds_numberFrom index) (ih (index + s.size))

/-! ## Numbering again -/

theorem numberFrom_numberFrom (ps : List Paragraph) (index : Nat) :
    numberFrom index (numberFrom index ps) = numberFrom index ps := by
  induction ps generalizing index with
  | nil => rfl
  | cons p rest ih =>
      rw [numberFrom, numberFrom, ih]
      rfl

theorem Section.numberFrom_numberFrom (s : Section) (index : Nat) :
    (s.numberFrom index).numberFrom index = s.numberFrom index := by
  cases s with
  | name n => rfl
  | text p => rfl
  | body b => exact congrArg (Section.body ⟨·⟩) (Element.numberFrom_numberFrom b.paragraphs index)

theorem Section.size_numberFrom (s : Section) (index : Nat) :
    (s.numberFrom index).size = s.size := by
  rw [← length_items, items_numberFrom, List.length_map, List.length_zipIdx, length_items]

theorem numberSections_numberSections (email : List Section) (index : Nat) :
    numberSections index (numberSections index email) = numberSections index email := by
  induction email generalizing index with
  | nil => rfl
  | cons s rest ih =>
      rw [numberSections, numberSections, s.size_numberFrom, s.numberFrom_numberFrom, ih]

/-! ## Bodies without paragraphs -/

/-- A body without paragraphs stays one, and nothing else becomes one. -/
theorem Section.numberFrom_eq_empty (s : Section) (index : Nat) :
    s.numberFrom index = .body ⟨[]⟩ ↔ s = .body ⟨[]⟩ := by
  cases s with
  | name n => simp [Section.numberFrom]
  | text p => simp [Section.numberFrom]
  | body b =>
      obtain ⟨ps⟩ := b
      cases ps <;> simp [Section.numberFrom, Element.numberFrom]

theorem filter_numberSections (email : List Section) (index : Nat) :
    (numberSections index email).filter (· ≠ .body ⟨[]⟩) =
      numberSections index (email.filter (· ≠ .body ⟨[]⟩)) := by
  induction email generalizing index with
  | nil => rfl
  | cons s rest ih =>
      by_cases hs : s = .body ⟨[]⟩
      · have hsize : s.size = 0 := by rw [hs]; rfl
        have hnumbered : s.numberFrom index = .body ⟨[]⟩ := (s.numberFrom_eq_empty index).mpr hs
        rw [numberSections, List.filter_cons_of_neg (by simp [hnumbered]),
          List.filter_cons_of_neg (by simp [hs]), ih, hsize, Nat.add_zero]
      · have hnumbered : s.numberFrom index ≠ .body ⟨[]⟩ := mt (s.numberFrom_eq_empty index).mp hs
        rw [numberSections, List.filter_cons_of_pos (by simp [hnumbered]),
          List.filter_cons_of_pos (by simp [hs]), ih, numberSections]

/-! ## Emails -/

/-- **Emails are numbered as one sequence.** The elements of a numbered email are those of the
email, each with the identifier of its text, its page and its place among all of them. The sections
and all else in them are as they were; bodies without paragraphs take no number, whether they are
dropped before or after; numbering again changes nothing; and an email of one body is numbered like
the body alone. -/
theorem email_numbered_as_sequence (email : List Section) :
    items (numberEmail email) = (items email).mapIdx
      (fun k e => e.withId (.fingerprint e.text e.core.origin.page k)) ∧
    List.Forall₂ SameButIds email (numberEmail email) ∧
    (numberEmail email).filter (· ≠ .body ⟨[]⟩) =
      numberEmail (email.filter (· ≠ .body ⟨[]⟩)) ∧
    numberEmail (numberEmail email) = numberEmail email ∧
    ∀ b, numberEmail [.body b] = [.body ⟨number b.paragraphs⟩] ∧
      number b.paragraphs = b.paragraphs.mapIdx fun k p => p.identify k := by
  refine ⟨?_, forall₂_numberSections email 0, filter_numberSections email 0,
    numberSections_numberSections email 0, fun b => ⟨rfl, ?_⟩⟩
  · rw [numberEmail, items_numberSections, List.mapIdx_eq_zipIdx_map]
    rfl
  · rw [number, numberFrom_eq, List.mapIdx_eq_zipIdx_map]

end Intake.Element
