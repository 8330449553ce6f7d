/-!
# Bytes of a text

The bytes of a text are those of its characters, one after the other, and the text is read back from
them.
-/

namespace Intake.Text

theorem toList_loop (bytes : ByteArray) (i : Nat) (front : List UInt8) :
    ByteArray.toList.loop bytes i front = front.reverse ++ bytes.data.toList.drop i := by
  induction i, front using ByteArray.toList.loop.induct bytes with
  | case1 i front hlt ih =>
      have hi : i < bytes.data.toList.length := by simpa using hlt
      have hget : bytes.get! i = bytes.data.toList[i] := by
        rw [ByteArray.get!, Array.getElem_toList]
        exact getElem!_pos bytes.data i (by simpa using hlt)
      rw [ByteArray.toList.loop, if_pos hlt, ih, List.drop_eq_getElem_cons hi, hget]
      simp
  | case2 i front hge =>
      have hlength : bytes.data.toList.length ≤ i := by simpa using hge
      rw [ByteArray.toList.loop, if_neg hge, List.drop_eq_nil_of_le hlength, List.append_nil]

theorem toList_eq_data (bytes : ByteArray) : bytes.toList = bytes.data.toList := by
  rw [ByteArray.toList, toList_loop]
  simp

/-- The bytes of a text that is made of one character. -/
def bytesOf (c : Char) : List UInt8 := (String.ofList [c]).toUTF8.toList

theorem bytesOf_eq (c : Char) : bytesOf c = String.utf8EncodeChar c := by
  rw [bytesOf, toList_eq_data, String.toUTF8, String.toByteArray_ofList, List.utf8Encode,
    List.toList_data_toByteArray]
  simp

/-- A character is decoded from its bytes, whatever follows them. -/
theorem utf8DecodeChar?_bytesOf (c : Char) (more : List UInt8) :
    (bytesOf c ++ more).toByteArray.utf8DecodeChar? 0 = some c := by
  rw [bytesOf_eq, List.toByteArray_append, ← List.utf8Encode_singleton]
  exact ByteArray.utf8DecodeChar?_append_eq_some List.utf8DecodeChar?_utf8Encode_singleton _

theorem toUTF8_eq (s : String) : s.toUTF8 = ⟨(s.toList.flatMap bytesOf).toArray⟩ := by
  rw [String.toUTF8, ← String.utf8Encode_toList, List.utf8Encode, ← funext bytesOf_eq]
  refine ByteArray.ext (Array.toList_inj.mp ?_)
  rw [List.toList_data_toByteArray]

/-- A text is read back from its bytes. -/
theorem fromUTF8?_toUTF8 (s : String) : String.fromUTF8? s.toUTF8 = some s := by
  rw [String.fromUTF8?, dif_pos (show s.toUTF8.IsValidUTF8 from s.isValidUTF8)]
  rfl

end Intake.Text
