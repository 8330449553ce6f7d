import Intake.Http.Form
import Intake.Proofs.Text.Bytes
import Intake.Proofs.Text.Split

/-!
# Queries are read back

A query is written with signs that stand neither in a name nor in a value as they are written, and
every byte of a name or a value is read back from what it is written as, whatever characters they are
made of.
-/

namespace Intake.Http

open Text (bytesOf)

/-! ## Bytes -/

namespace Percent

theorem decode_cons_of_ne {c : Char} (h : c ≠ '%') (rest : List Char) :
    decode (c :: rest) = bytesOf c ++ decode rest := by
  rw [decode]
  · rfl
  · intro a b rest' heq
    exact fun _ => h heq

theorem hexValue_hexDigit {n : Nat} (h : n < 16) : Text.hexValue (hexDigit n) = some n := by
  have hall : ∀ n < 16, Text.hexValue (hexDigit n) = some n := by decide
  exact hall n h

theorem decode_escape (b : UInt8) (rest : List Char) :
    decode (escape b ++ rest) = b :: decode rest := by
  have hb : b.toNat < 256 := b.toNat_lt
  have hhigh : b.toNat / 16 < 16 := by omega
  have hlow : b.toNat % 16 < 16 := Nat.mod_lt _ (by decide)
  have hwhole : b.toNat / 16 * 16 + b.toNat % 16 = b.toNat := by omega
  rw [escape, List.cons_append, List.cons_append, List.cons_append, List.nil_append, decode,
    hexValue_hexDigit hhigh, hexValue_hexDigit hlow]
  simp only [hwhole, UInt8.ofNat_toNat]

theorem bytesOf_ofNat {n : Nat} (h : n < 128) : bytesOf (Char.ofNat n) = [UInt8.ofNat n] := by
  have hall : ∀ n < 128, String.utf8EncodeChar (Char.ofNat n) = [UInt8.ofNat n] := by decide
  rw [Text.bytesOf_eq, hall n h]

variable {plain : Char → Bool}

/-- A byte is read back if the percent sign does not stand for itself. -/
theorem decode_encodeByte (hplain : plain '%' = false) (b : UInt8) (rest : List Char) :
    decode (encodeByte plain b ++ rest) = b :: decode rest := by
  rw [encodeByte]
  split
  · next h =>
      simp only [Bool.and_eq_true, decide_eq_true_eq] at h
      have hne : Char.ofNat b.toNat ≠ '%' := by
        intro heq
        rw [heq, hplain] at h
        cases h.2
      rw [List.singleton_append, decode_cons_of_ne hne, bytesOf_ofNat (by omega),
        UInt8.ofNat_toNat, List.singleton_append]
  · exact decode_escape b rest

/-- What a byte is written with stands for itself, or is used to write other bytes. -/
theorem mem_encodeByte {b : UInt8} {c : Char} (h : c ∈ encodeByte plain b) :
    plain c = true ∨ c = '%' ∨ ∃ n < 16, c = hexDigit n := by
  rw [encodeByte] at h
  split at h
  · next hplain =>
      rw [Bool.and_eq_true] at hplain
      rw [List.mem_singleton.mp h]
      exact Or.inl hplain.2
  · have hb : b.toNat < 256 := b.toNat_lt
    simp only [escape, List.mem_cons, List.not_mem_nil, or_false] at h
    rcases h with rfl | rfl | rfl
    · exact Or.inr (Or.inl rfl)
    · exact Or.inr (Or.inr ⟨b.toNat / 16, by omega, rfl⟩)
    · exact Or.inr (Or.inr ⟨b.toNat % 16, by omega, rfl⟩)

end Percent

/-! ## Forms -/

namespace Form

/-- A blank for a plus sign. -/
def unplus (c : Char) : Char := if c = '+' then ' ' else c

/-- The signs of a form are not used to write a byte. -/
theorem sign_notMem_encodeByte {sign : Char} (hsign : sign ∈ ['+', '&', '=']) (b : UInt8) :
    sign ∉ Percent.encodeByte isPlain b := by
  intro h
  have hdigit : ∀ n < 16, Percent.hexDigit n ∉ ['+', '&', '='] := by decide
  rcases Percent.mem_encodeByte h with hplain | rfl | ⟨n, hn, rfl⟩
  · simp only [List.mem_cons, List.not_mem_nil, or_false] at hsign
    rcases hsign with rfl | rfl | rfl
    all_goals exact absurd hplain (by decide)
  · exact absurd hsign (by decide)
  · exact hdigit n hn hsign

theorem sign_notMem_encode {sign : Char} (hsign : sign ∈ ['&', '=']) (s : String) :
    sign ∉ encode s := by
  intro h
  obtain ⟨c, _, hc⟩ := List.mem_flatMap.mp h
  rw [encodeChar] at hc
  split at hc
  · obtain rfl := List.mem_singleton.mp hc
    simp at hsign
  · obtain ⟨b, _, hb⟩ := List.mem_flatMap.mp hc
    exact sign_notMem_encodeByte (List.mem_cons_of_mem '+' hsign) b hb

theorem map_unplus_encodeByte (b : UInt8) :
    (Percent.encodeByte isPlain b).map unplus = Percent.encodeByte isPlain b := by
  refine (List.map_congr_left fun c hc => if_neg ?_).trans (List.map_id _)
  rintro rfl
  exact sign_notMem_encodeByte List.mem_cons_self b hc

theorem decode_encodeByte (b : UInt8) (rest : List Char) :
    Percent.decode ((Percent.encodeByte isPlain b).map unplus ++ rest) =
      b :: Percent.decode rest := by
  rw [map_unplus_encodeByte]
  exact Percent.decode_encodeByte (by decide +kernel) b rest

theorem decode_encodeChar (c : Char) (rest : List Char) :
    Percent.decode ((encodeChar c).map unplus ++ rest) = bytesOf c ++ Percent.decode rest := by
  rw [encodeChar]
  split
  · next h =>
      subst h
      exact Percent.decode_cons_of_ne (by decide) rest
  · rw [Percent.encodeChar]
    show Percent.decode (((bytesOf c).flatMap _).map unplus ++ rest) = _
    induction bytesOf c with
    | nil => rfl
    | cons b bytes ih =>
        rw [List.flatMap_cons, List.map_append, List.append_assoc, decode_encodeByte, ih]
        rfl

/-- A name or a value is read back. -/
theorem decode_encode (s : String) : decode (encode s) = s := by
  have hbytes : Percent.decode ((encode s).map unplus) = s.toList.flatMap bytesOf := by
    rw [encode]
    induction s.toList with
    | nil =>
        rw [List.flatMap_nil, List.map_nil, Percent.decode]
        rfl
    | cons c cs ih =>
        rw [List.flatMap_cons, List.map_append, decode_encodeChar, ih, List.flatMap_cons]
  show (String.fromUTF8? ⟨(Percent.decode ((encode s).map unplus)).toArray⟩).getD "" = s
  rw [hbytes, ← Text.toUTF8_eq, Text.fromUTF8?_toUTF8, Option.getD_some]

theorem readPair_writePair (p : String × String) : readPair (writePair p) = p := by
  have hname : ∀ c ∈ encode p.1, decide (c ≠ '=') = true := by
    intro c hc
    rw [decide_eq_true_eq]
    rintro rfl
    exact sign_notMem_encode (by simp) p.1 hc
  have htake : (writePair p).takeWhile (· ≠ '=') = encode p.1 := by
    rw [writePair, List.takeWhile_append_of_pos hname, List.takeWhile_cons_of_neg (by simp),
      List.append_nil]
  rw [readPair, htake, writePair, List.drop_left, List.drop_one, List.tail_cons, decode_encode,
    decode_encode]

/-- **Queries are read back.** The names and values of a form are those with which it was
written. -/
theorem read_write (pairs : List (String × String)) : read (write pairs) = pairs := by
  cases hpairs : pairs with
  | nil => rfl
  | cons p rest =>
      have hsign : ∀ piece ∈ (p :: rest).map writePair, '&' ∉ piece := by
        intro piece hpiece
        obtain ⟨q, _, rfl⟩ := List.mem_map.mp hpiece
        rw [writePair, List.mem_append, List.mem_cons]
        rintro (h | h | h)
        · exact sign_notMem_encode (by simp) q.1 h
        · cases h
        · exact sign_notMem_encode (by simp) q.2 h
      have hkept : ((p :: rest).map writePair).filter (!·.isEmpty) = (p :: rest).map writePair := by
        refine List.filter_eq_self.mpr fun piece hpiece => ?_
        obtain ⟨q, _, rfl⟩ := List.mem_map.mp hpiece
        simp [writePair]
      rw [read, write, Text.splitAt_intercalate (by simp) hsign, hkept, List.map_map]
      exact (List.map_congr_left fun q _ => readPair_writePair q).trans (List.map_id _)

theorem eq_nil_of_write {pairs : List (String × String)} (h : write pairs = []) : pairs = [] := by
  have hread := read_write pairs
  rw [h] at hread
  exact hread.symm

end Form

end Intake.Http
