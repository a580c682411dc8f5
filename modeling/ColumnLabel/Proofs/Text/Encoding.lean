import ColumnLabel.Text.Encoding

/-!
# ColumnLabel.Proofs.Text.Encoding

Texts in UTF-8 read back (`ofBytes_toUTF8`), as long as they start with characters of ASCII.  A character
beyond ASCII could be the mark that is dropped, and the character zero would pass for half of a unit of
UTF-16.
-/

namespace ColumnLabel.Text

/-- Is a character one of ASCII, other than the character zero? -/
def isPlainAscii (c : Char) : Bool := 0 < c.toNat && c.toNat < 0x80

/-- A plain character of ASCII is a byte that is not zero. -/
theorem exists_utf8EncodeChar_eq {c : Char} (h : isPlainAscii c = true) :
    ∃ b : UInt8, b ≠ 0 ∧ String.utf8EncodeChar c = [b] := by
  simp only [isPlainAscii, Bool.and_eq_true, decide_eq_true_eq] at h
  refine ⟨UInt8.ofNat c.toNat, ?_, ?_⟩
  · intro hzero
    have hnat := congrArg UInt8.toNat hzero
    rw [UInt8.toNat_ofNat', Nat.mod_eq_of_lt (by omega)] at hnat
    have hz : c.toNat = 0 := hnat
    omega
  · have hsmall : c.val.toNat ≤ 0x7f := Nat.le_of_lt_succ h.2
    unfold String.utf8EncodeChar
    exact if_pos hsmall

/-- The bytes of a text in UTF-8. -/
theorem toList_toUTF8 (cs : List Char) :
    (String.ofList cs).toUTF8.data.toList = cs.flatMap String.utf8EncodeChar := by
  rw [String.toUTF8_eq_toByteArray, String.toByteArray_ofList, List.utf8Encode,
    List.data_toByteArray]

/-- Two bytes that are not zero at the start tell UTF-8. -/
theorem Encoding.ofBytes_eq_utf8 {a b : UInt8} (ha : a ≠ 0) (hb : b ≠ 0) (bytes : List UInt8) :
    ofBytes (a :: b :: bytes) = utf8 := by
  rcases bytes with _ | ⟨c, _ | ⟨d, bytes⟩⟩ <;> simp [ofBytes, ha, hb]

theorem Encoding.ofBytes_toUTF8 {cs : List Char} (h : (cs.take 2).all isPlainAscii = true) :
    ofBytes (String.ofList cs).toUTF8.data.toList = utf8 := by
  rw [toList_toUTF8]
  match cs, h with
  | [], _ => rfl
  | [a], h =>
      obtain ⟨x, _, hx⟩ := exists_utf8EncodeChar_eq (c := a) (by simpa using h)
      rw [List.flatMap_singleton, hx]
      rfl
  | a :: b :: rest, h =>
      simp only [List.take_succ_cons, List.take_zero, List.all_cons, List.all_nil, Bool.and_true,
        Bool.and_eq_true] at h
      obtain ⟨x, hx0, hx⟩ := exists_utf8EncodeChar_eq h.1
      obtain ⟨y, hy0, hy⟩ := exists_utf8EncodeChar_eq h.2
      rw [List.flatMap_cons, List.flatMap_cons, hx, hy]
      exact ofBytes_eq_utf8 hx0 hy0 _

/-- A text that starts with a character of ASCII has no mark to drop. -/
theorem Encoding.withoutMark_eq_self {cs : List Char} (h : (cs.take 2).all isPlainAscii = true) :
    withoutMark (String.ofList cs) = String.ofList cs := by
  rw [withoutMark, String.toList_ofList]
  cases cs with
  | nil => rfl
  | cons c cs =>
      have hc : isPlainAscii c = true := by
        simp only [List.take_succ_cons, List.all_cons, Bool.and_eq_true] at h
        exact h.1
      simp only [isPlainAscii, Bool.and_eq_true, decide_eq_true_eq] at hc
      have hmark : c.toNat ≠ 0xFEFF := by omega
      simp only [hmark, if_false]

/-- **Reading back.**  The bytes of a text in UTF-8 are read as that text, if it starts with characters of
ASCII. -/
theorem ofBytes_toUTF8 {cs : List Char} (h : (cs.take 2).all isPlainAscii = true) :
    ofBytes (String.ofList cs).toUTF8 = .ok (String.ofList cs) := by
  have hvalid : (String.ofList cs).toUTF8.IsValidUTF8 := (String.ofList cs).isValidUTF8
  have hread : String.fromUTF8? (String.ofList cs).toUTF8 = some (String.ofList cs) := by
    rw [String.fromUTF8?, dif_pos hvalid]
    rfl
  simp only [ofBytes, Encoding.ofBytes_toUTF8 h, Encoding.read, hread, Encoding.withoutMark_eq_self h]

end ColumnLabel.Text
