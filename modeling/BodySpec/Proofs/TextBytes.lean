import Mathlib.Data.List.Basic

/-!
# The bytes of a text

Bytes below 128 spell the characters with the same codes (`toUTF8_ofList_of_lt`). What stands between two texts spells a
text iff the whole does, for a text can be cut where another one begins or ends (`fromUTF8?_between`).
-/

namespace BodySpec.Text

/-! ## Bytes that are characters -/

/-- The character with the code of a byte below 128 takes this byte alone. -/
theorem utf8EncodeChar_of_lt {b : UInt8} (h : b.toNat < 128) :
    String.utf8EncodeChar (Char.ofNat b.toNat) = [b] := by
  have code : (Char.ofNat b.toNat).toNat = b.toNat := by
    have valid : b.toNat.isValidChar := .inl (by omega)
    rw [Char.ofNat, dif_pos valid]
    rfl
  have one : (Char.ofNat b.toNat).utf8Size = 1 := by
    rw [Char.utf8Size_eq_one_iff, UInt32.le_iff_toNat_le]
    show (Char.ofNat b.toNat).toNat ≤ 127
    omega
  rw [String.utf8EncodeChar_eq_singleton one]
  congr 1
  apply UInt8.toNat_inj.mp
  rw [UInt32.toNat_toUInt8]
  show (Char.ofNat b.toNat).toNat % 256 = b.toNat
  omega

theorem toUTF8_ofList_of_lt {bs : List UInt8} (h : ∀ b ∈ bs, b.toNat < 128) :
    (String.ofList (bs.map fun b => Char.ofNat b.toNat)).toUTF8 = bs.toByteArray := by
  have same : bs.flatMap (fun b => String.utf8EncodeChar (Char.ofNat b.toNat)) = bs := by
    rw [List.flatMap_congr fun b hb => utf8EncodeChar_of_lt (h b hb), List.flatMap_singleton']
  rw [String.toUTF8_eq_toByteArray, String.toByteArray_ofList, List.utf8Encode, List.flatMap_map, same]

/-! ## Bytes between texts -/

/-- A text cut in two: if one part is a text, the cut is at a character, so the other part is a text as well. -/
theorem isValidUTF8_iff_of_append {a b : ByteArray} (h : (a ++ b).IsValidUTF8) :
    a.IsValidUTF8 ↔ b.IsValidUTF8 := by
  let whole : String := ⟨a ++ b, h⟩
  have within : (⟨a.size⟩ : String.Pos.Raw) ≤ whole.rawEndPos := by
    show a.size ≤ (a ++ b).size
    rw [ByteArray.size_append]
    exact Nat.le_add_right _ _
  have front : whole.toByteArray.extract 0 a.size = a := ByteArray.extract_append_eq_left rfl
  have rest : whole.toByteArray.extract a.size whole.utf8ByteSize = b :=
    ByteArray.extract_append_eq_right rfl ByteArray.size_append
  calc a.IsValidUTF8
    _ ↔ String.Pos.Raw.IsValid whole ⟨a.size⟩ := by
      rw [String.Pos.Raw.isValid_iff_isValidUTF8_extract_zero, front, and_iff_right within]
    _ ↔ b.IsValidUTF8 := by
      rw [String.Pos.Raw.isValid_iff_isValidUTF8_extract_utf8ByteSize, rest, and_iff_right within]

theorem fromUTF8?_toUTF8 (s : String) : String.fromUTF8? s.toUTF8 = some s := dif_pos s.isValidUTF8

/-- Bytes between two texts spell what is between them in the text of the whole. -/
theorem fromUTF8?_between (before after : String) (b : ByteArray) :
    String.fromUTF8? (before.toUTF8 ++ b ++ after.toUTF8) = (String.fromUTF8? b).map fun s => before ++ s ++ after := by
  by_cases hb : b.IsValidUTF8
  · have whole : String.fromUTF8? (before ++ String.fromUTF8 b hb ++ after).toUTF8 = _ := fromUTF8?_toUTF8 _
    have inner : String.fromUTF8? b = some (String.fromUTF8 b hb) := dif_pos hb
    rw [inner, Option.map_some, ← whole]
    rfl
  · have not_whole : ¬ (before.toUTF8 ++ b ++ after.toUTF8).IsValidUTF8 := by
      intro h
      have front : (before.toUTF8 ++ b).IsValidUTF8 := (isValidUTF8_iff_of_append h).mpr after.isValidUTF8
      exact hb ((isValidUTF8_iff_of_append front).mp before.isValidUTF8)
    rw [String.fromUTF8?, String.fromUTF8?, dif_neg hb, dif_neg not_whole]
    rfl

end BodySpec.Text
