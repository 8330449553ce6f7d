import Intake.Proofs.Element.Numbering
import Intake.Proofs.Text.Digits
import Mathlib.Data.List.Nodup

/-!
# Identifiers of an email

What is hashed for an element is its text, its page and its position, with nothing between them.
Where no page is known, the position is all that is read at the end, whatever the text is; so
elements without pages are told apart by their positions. The digits of a page run into those of
the position, and then two elements of an email may be hashed alike.
-/

namespace Intake

/-- Two messages that their fingerprints do not tell apart. -/
def Digest.Collision (a b : ByteArray) : Prop := a ≠ b ∧ fingerprint a = fingerprint b

namespace Element

open Text.Decimal

namespace Id

/-- The bytes that are hashed. -/
def message (cs : List Char) : ByteArray := (String.ofList cs).toUTF8

theorem message_inj {cs ds : List Char} : message cs = message ds ↔ cs = ds := by
  constructor
  · intro h
    exact String.ofList_injective (String.toByteArray_inj.mp h)
  · exact congrArg message

/-- The identifier of what is hashed. -/
def ofHashed (cs : List Char) : Id := ⟨Digest.fingerprint (message cs)⟩

/-- Texts with one identifier are the same, or their fingerprints collide. -/
theorem collision_of_ofHashed_eq {cs ds : List Char} (hne : cs ≠ ds)
    (h : ofHashed cs = ofHashed ds) : Digest.Collision (message cs) (message ds) := by
  refine ⟨fun heq => hne (message_inj.mp heq), ?_⟩
  exact congrArg Id.text h

/-- What is hashed of an element besides its position. -/
def base (text : String) (page : Option Nat) : List Char := text.toList ++ pageText page

theorem hashed_eq (text : String) (page : Option Nat) (index : Nat) :
    hashed text page index = base text page ++ digits index :=
  (List.append_assoc _ _ _).symm

/-- Without a page there is no digit before the position. -/
theorem getLast?_base_none (text : String) : (base text none).getLast? = some 'e' := by
  rw [base, List.getLast?_append]
  rfl

/-- What is hashed of an element without a page does not end in digits besides its position. -/
theorem base_none_ne_append (text : String) {cs lead : List Char} (hne : lead ≠ [])
    (hlead : ∀ c ∈ lead, c.isDigit = true) : base text none ≠ cs ++ lead := by
  intro h
  have hlast := getLast?_base_none text
  rw [h, List.getLast?_append_of_ne_nil _ hne] at hlast
  have hdigit := hlead 'e' (List.mem_of_getLast? hlast)
  exact absurd hdigit (by decide)

/-- Elements without pages are hashed differently at different positions, whatever their texts. -/
theorem hashed_none_ne {s t : String} {i j : Nat} (hij : i ≠ j) :
    hashed s none i ≠ hashed t none j := by
  wlog hlt : i < j generalizing s t i j
  · exact (this hij.symm (Nat.lt_of_le_of_ne (Nat.le_of_not_lt hlt) hij.symm)).symm
  · intro h
    rw [hashed_eq, hashed_eq, append_digits_eq_iff hlt] at h
    obtain ⟨lead, hj, hbase⟩ := h
    obtain ⟨hne, hlead⟩ := lead_of_lt hlt hj
    exact base_none_ne_append s hne hlead hbase

end Id

/-! ## Elements of an email -/

/-- An element of an email: the text that is hashed, and what all elements have. -/
structure Part where
  text : String
  core : Core
  deriving DecidableEq

namespace Part

/-- The identifier becomes that of a position. -/
def identify (p : Part) (index : Nat) : Part := { p with core := p.core.identify p.text index }

/-- What is hashed for the element at a position. -/
def hashed (p : Part) (index : Nat) : List Char := Id.hashed p.text p.core.origin.page index

/-- What is hashed of the element besides its position. -/
def base (p : Part) : List Char := Id.base p.text p.core.origin.page

theorem hashed_eq (p : Part) (index : Nat) : p.hashed index = p.base ++ digits index :=
  Id.hashed_eq _ _ _

/-- Whether two elements are hashed alike, the first one at a smaller position: what the greater
position has more than the smaller one ends what is hashed of the first element, and the second
element is hashed as what stands before that. -/
def Blurred (p : Part) (i : Nat) (q : Part) (j : Nat) : Prop :=
  ∃ lead, digits j = lead ++ digits i ∧ p.base = q.base ++ lead

theorem hashed_eq_iff {p q : Part} {i j : Nat} (hij : i < j) :
    p.hashed i = q.hashed j ↔ Blurred p i q j := by
  rw [hashed_eq, hashed_eq]
  exact append_digits_eq_iff hij

/-- Only an element with a page is taken for a later one. -/
theorem Blurred.page_ne_none {p q : Part} {i j : Nat} (h : Blurred p i q j) (hij : i < j) :
    p.core.origin.page ≠ none := by
  intro hpage
  obtain ⟨lead, hj, hbase⟩ := h
  obtain ⟨hne, hlead⟩ := lead_of_lt hij hj
  rw [base, hpage] at hbase
  exact Id.base_none_ne_append p.text hne hlead hbase

/-- Only an element with a position of two digits is taken for an earlier one. -/
theorem Blurred.ten_le {p q : Part} {i j : Nat} (h : Blurred p i q j) (hij : i < j) : 10 ≤ j := by
  obtain ⟨lead, hj, _⟩ := h
  obtain ⟨hne, _⟩ := lead_of_lt hij hj
  by_contra hsmall
  have hlength := congrArg List.length hj
  rw [digits, Nat.toDigits_of_lt_base (by omega), List.length_singleton, List.length_append]
    at hlength
  have hlead := List.length_pos_of_ne_nil hne
  have hdigits := List.length_pos_of_ne_nil (digits_ne_nil i)
  omega

end Part

/-- The elements of a section. -/
def Section.parts : Section → List Part
  | .name n => [⟨n.text, n.core⟩]
  | .text p => [⟨p.text, p.core⟩]
  | .body b => b.paragraphs.map fun p => ⟨p.text, p.core⟩

/-- The elements of an email. -/
def parts (email : List Section) : List Part := email.flatMap Section.parts

/-- What is hashed for the elements of an email. -/
def hashedTexts (email : List Section) : List (List Char) :=
  (parts email).zipIdx.map fun (p, i) => p.hashed i

/-- An element with what all elements have. -/
def Item.part (e : Item) : Part := ⟨e.text, e.core⟩

theorem Section.parts_eq (s : Section) : s.parts = s.items.map Item.part := by
  cases s with
  | name n => rfl
  | text p => rfl
  | body b =>
      rw [Section.parts, Section.items, List.map_map]
      rfl

theorem parts_eq (email : List Section) : parts email = (items email).map Item.part := by
  rw [parts, items, List.map_flatMap]
  exact congrArg (email.flatMap ·) (funext Section.parts_eq)

theorem Item.part_identify (e : Item) (index : Nat) :
    (e.identify index).part = e.part.identify index := by
  cases e <;> rfl

/-- Numbering gives all elements the identifiers of their positions. -/
theorem parts_numberSections (email : List Section) (index : Nat) :
    parts (numberSections index email) =
      ((parts email).zipIdx index).map fun (p, i) => p.identify i := by
  rw [parts_eq, items_numberSections, parts_eq, List.zipIdx_map, List.map_map, List.map_map]
  exact List.map_congr_left fun (e, i) _ => e.part_identify i

/-- Positions grow along a list. -/
theorem pairwise_zipIdx_lt {α : Type} (as : List α) :
    as.zipIdx.Pairwise fun a b => a.2 < b.2 := by
  apply List.pairwise_map.mp
  rw [List.zipIdx_map_snd]
  exact List.pairwise_lt_range' 1

theorem nodup_hashedTexts_iff (email : List Section) :
    (hashedTexts email).Nodup ↔
      (parts email).zipIdx.Pairwise fun a b => ¬a.1.Blurred a.2 b.1 b.2 := by
  have hpositions := pairwise_zipIdx_lt (parts email)
  rw [hashedTexts, List.nodup_iff_pairwise_ne, List.pairwise_map]
  constructor
  · intro h
    refine (hpositions.and h).imp ?_
    rintro a b ⟨hlt, hne⟩
    exact mt (Part.hashed_eq_iff hlt).mpr hne
  · intro h
    refine (hpositions.and h).imp ?_
    rintro a b ⟨hlt, hnot⟩
    exact mt (Part.hashed_eq_iff hlt).mp hnot

/-- The identifiers of the elements of an email. -/
def ids (email : List Section) : List Id := (parts email).map (·.core.id)

theorem ids_numberEmail (email : List Section) :
    ids (numberEmail email) = (hashedTexts email).map Id.ofHashed := by
  rw [ids, numberEmail, parts_numberSections, hashedTexts, List.map_map, List.map_map]
  rfl

/-- **Identifiers of an email.** Numbering gives the elements of an email, in their order, the
identifiers of what is hashed for them. That is different for all of them exactly where no element
is taken for a later one; it is so wherever no pages are known, and in every email of at most ten
elements. Where two identifiers are the same, one element is taken for the other, or two
fingerprints collide. -/
theorem email_ids_told_apart_iff (email : List Section) :
    ids (numberEmail email) = (hashedTexts email).map Id.ofHashed ∧
      ((hashedTexts email).Nodup ↔
        (parts email).zipIdx.Pairwise fun a b => ¬a.1.Blurred a.2 b.1 b.2) ∧
      ((∀ p ∈ parts email, p.core.origin.page = none) → (hashedTexts email).Nodup) ∧
      ((parts email).length ≤ 10 → (hashedTexts email).Nodup) ∧
      ∀ (i j : Nat) (p q : Part), i < j → (parts email)[i]? = some p → (parts email)[j]? = some q →
        (ids (numberEmail email))[i]? = (ids (numberEmail email))[j]? →
          p.Blurred i q j ∨ Digest.Collision (Id.message (p.hashed i)) (Id.message (q.hashed j)) := by
  have hpositions := pairwise_zipIdx_lt (parts email)
  refine ⟨ids_numberEmail email, nodup_hashedTexts_iff email, ?_, ?_, ?_⟩
  · intro hpages
    rw [nodup_hashedTexts_iff]
    refine hpositions.imp_of_mem ?_
    rintro ⟨p, i⟩ ⟨q, j⟩ hp _ hij hblurred
    exact hblurred.page_ne_none hij (hpages p (List.fst_mem_of_mem_zipIdx hp))
  · intro hlength
    rw [nodup_hashedTexts_iff]
    refine hpositions.imp_of_mem ?_
    rintro ⟨p, i⟩ ⟨q, j⟩ _ hq hij hblurred
    have hten := hblurred.ten_le hij
    have hj := (List.mem_zipIdx hq).2.1
    omega
  · intro i j p q hij hp hq hsame
    have hid : Id.ofHashed (p.hashed i) = Id.ofHashed (q.hashed j) := by
      simpa [ids_numberEmail, hashedTexts, hp, hq] using hsame
    by_cases heq : p.hashed i = q.hashed j
    · exact Or.inl ((Part.hashed_eq_iff hij).mp heq)
    · exact Or.inr (Id.collision_of_ofHashed_eq heq hid)

/-- A paragraph that has not got its position yet, on a page if one is given. -/
def loose (page : Option Nat) (text : String) : Paragraph := ⟨.text, ⟨⟨""⟩, page, none, none⟩, text⟩

/-- An email without pages, whose texts are alike. -/
def lunch : List Section :=
  [.text (loose none "1"), .body ⟨[loose none "None", loose none "None", loose none "None1"]⟩]

/-- An email of eleven elements. The first one stands on page 11, the last one on page 1. -/
def crowded : List Section :=
  [.body ⟨loose (some 11) "a" :: List.replicate 9 (loose none "b") ++ [loose (some 1) "a"]⟩]

theorem email_ids_told_apart_lunch :
    (hashedTexts lunch).Nodup ∧ (parts lunch).length ≤ 10 ∧
      ∀ p q, (parts crowded)[0]? = some p → (parts crowded)[10]? = some q →
        p.Blurred 0 q 10 ∨ Digest.Collision (Id.message (p.hashed 0)) (Id.message (q.hashed 10)) := by
  have hshort : (parts lunch).length ≤ 10 := by decide
  have hpages : ∀ p ∈ parts lunch, p.core.origin.page = none := by decide
  have hsame : (ids (numberEmail crowded))[0]? = (ids (numberEmail crowded))[10]? := by
    rw [ids_numberEmail]
    rfl
  refine ⟨(email_ids_told_apart_iff lunch).2.2.1 hpages, hshort, fun p q hp hq => ?_⟩
  exact (email_ids_told_apart_iff crowded).2.2.2.2 0 10 p q (by decide) hp hq hsame

/-- Two elements of an email can be hashed alike: an `a` on page 11 at position 0, and an `a` on
page 1 at position 10. -/
theorem page_runs_into_position :
    (¬∀ email : List Section, (hashedTexts email).Nodup) ∧
      ¬∀ email : List Section, (ids (numberEmail email)).Nodup := by
  have hcrowded : ¬(hashedTexts crowded).Nodup := by decide
  refine ⟨fun h => hcrowded (h crowded), fun h => hcrowded ?_⟩
  have hids := h crowded
  rw [ids_numberEmail] at hids
  exact List.Nodup.of_map _ hids

end Element

end Intake
