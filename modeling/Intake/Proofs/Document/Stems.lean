import Intake.Document.Stem

/-!
# Stems

A stem has no separators, and a locator without separators is its own stem. As long as the
digests of two different locators differ, their stems are the same only if one of the
locators is the stem of the other.
-/

namespace Intake

namespace Digest

theorem length_bigEndian (count n : Nat) : (bigEndian count n).length = count := by
  rw [bigEndian, List.length_map, List.length_reverse, List.length_range]

theorem length_sha256 (message : List UInt8) : (sha256 message).length = 32 := by
  rw [sha256, Chain.words]
  simp only [List.flatMap_cons, List.flatMap_nil, List.length_append, length_bigEndian,
    List.length_nil]

theorem length_sha256Hex (message : ByteArray) : (sha256Hex message).toList.length = 64 := by
  rw [sha256Hex, hexText, String.toList_ofList, List.length_flatMap]
  simp only [List.length_cons, List.length_nil, List.map_const', List.sum_replicate_nat,
    length_sha256]

theorem isSeparator_digitChar : ∀ n < 16, Document.isSeparator (Nat.digitChar n) = false := by
  decide

/-- The digits of a digest are no separators of paths. -/
theorem separator_notMem_sha256Hex (message : ByteArray) {c : Char}
    (hc : c ∈ (sha256Hex message).toList) : Document.isSeparator c = false := by
  rw [sha256Hex, hexText, String.toList_ofList, List.mem_flatMap] at hc
  obtain ⟨b, _, hb⟩ := hc
  have hlow : b.toNat % 16 < 16 := Nat.mod_lt _ (by decide)
  have hhigh : b.toNat / 16 < 16 := by
    have := b.toNat_lt
    omega
  have hdigit : ∃ n < 16, c = Nat.digitChar n := by
    simp only [List.mem_cons, List.not_mem_nil, or_false] at hb
    rcases hb with hb | hb
    · exact ⟨_, hhigh, hb⟩
    · exact ⟨_, hlow, hb⟩
  obtain ⟨n, hn, rfl⟩ := hdigit
  exact isSeparator_digitChar n hn

end Digest

namespace Document

/-- The digits of its digest that a locator with separators is known by. -/
def shortDigest (locator : String) : List Char :=
  (Digest.sha256Hex locator.toUTF8).toList.take stemDigits

theorem length_shortDigest (locator : String) : (shortDigest locator).length = stemDigits := by
  rw [shortDigest, List.length_take, Digest.length_sha256Hex]
  rfl

/-- Whether a locator has no separators of paths. -/
def Plain (locator : String) : Prop := ∀ c ∈ locator.toList, isSeparator c = false

instance (locator : String) : Decidable (Plain locator) :=
  decidable_of_iff (locator.toList.all (!isSeparator ·) = true) (by simp [Plain])

theorem any_isSeparator {locator : String} :
    locator.toList.any isSeparator = true ↔ ¬Plain locator := by
  simp [Plain]

theorem stem_of_plain {locator : String} (h : Plain locator) : stem locator = locator := by
  rw [stem, if_neg fun hany => any_isSeparator.mp hany h]

theorem toList_stem {locator : String} (h : ¬Plain locator) :
    (stem locator).toList = (flatten locator).toList ++ '-' :: shortDigest locator := by
  rw [stem, if_pos (any_isSeparator.mpr h), String.toList_ofList, shortDigest]

theorem plain_flatten (locator : String) : Plain (flatten locator) := by
  intro c hc
  rw [flatten, String.toList_ofList, List.mem_map] at hc
  obtain ⟨a, _, rfl⟩ := hc
  split
  · rfl
  · next h => exact Bool.eq_false_iff.mpr h

/-- A stem has no separators, whatever it is the stem of. -/
theorem plain_stem (locator : String) : Plain (stem locator) := by
  by_cases h : Plain locator
  · rw [stem_of_plain h]
    exact h
  · intro c hc
    rw [toList_stem h, List.mem_append, List.mem_cons] at hc
    rcases hc with hc | rfl | hc
    · exact plain_flatten locator c hc
    · rfl
    · exact Digest.separator_notMem_sha256Hex _ (List.mem_of_mem_take hc)

theorem stem_stem (locator : String) : stem (stem locator) = stem locator :=
  stem_of_plain (plain_stem locator)

/-- Two locators with separators that have one stem have the same digits of their digests. -/
theorem shortDigest_eq_of_stem_eq {a b : String} (ha : ¬Plain a) (hb : ¬Plain b)
    (h : stem a = stem b) : shortDigest a = shortDigest b := by
  have htext := congrArg String.toList h
  rw [toList_stem ha, toList_stem hb] at htext
  have hlength : ('-' :: shortDigest a).length = ('-' :: shortDigest b).length := by
    rw [List.length_cons, List.length_cons, length_shortDigest, length_shortDigest]
  exact (List.cons.inj (List.append_inj_right' htext hlength)).2

/-- Whether one of two locators is what the other one is made into. -/
def Mimics (a b : String) : Prop := a = stem b ∨ b = stem a

instance (a b : String) : Decidable (Mimics a b) := by
  unfold Mimics
  infer_instance

theorem Mimics.stem_eq {a b : String} (h : Mimics a b) : stem a = stem b := by
  rcases h with rfl | rfl
  · exact stem_stem b
  · exact (stem_stem a).symm

/-- Where their digests tell them apart, locators of one stem are the same or one is made into the
other. -/
theorem eq_or_mimics {a b : String} (hdigest : shortDigest a = shortDigest b → a = b)
    (h : stem a = stem b) : a = b ∨ Mimics a b := by
  by_cases ha : Plain a
  · right
    left
    rw [← h, stem_of_plain ha]
  · by_cases hb : Plain b
    · right
      right
      rw [h, stem_of_plain hb]
    · left
      exact hdigest (shortDigest_eq_of_stem_eq ha hb h)

theorem stem_eq_iff {a b : String} (hne : a ≠ b) (hdigest : shortDigest a ≠ shortDigest b) :
    stem a = stem b ↔ Mimics a b := by
  constructor
  · intro h
    exact (eq_or_mimics (fun heq => absurd heq hdigest) h).resolve_left hne
  · exact Mimics.stem_eq

theorem slash_notMem_stem (locator : String) : '/' ∉ (stem locator).toList :=
  fun h => Bool.noConfusion (plain_stem locator '/' h)

end Document

end Intake
