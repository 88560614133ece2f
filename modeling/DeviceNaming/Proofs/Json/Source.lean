import DeviceNaming.Json.Source

/-!
# Source of a text

The bytes of a text are read into its characters, none of them being taken for a stray byte
(`Source.ofBytes_toUTF8`).
-/

namespace DeviceNaming.Json.Source

theorem size_utf8Encode_cons (c : Char) (cs : List Char) :
    (c :: cs).utf8Encode.size = c.utf8Size + cs.utf8Encode.size := by
  rw [List.utf8Encode_cons, ByteArray.size_append, List.utf8Encode_singleton, List.size_toByteArray,
    String.length_utf8EncodeChar]

theorem utf8DecodeChar?_append (before : ByteArray) (c : Char) (cs : List Char) :
    (before ++ (c :: cs).utf8Encode).utf8DecodeChar? before.size = some c := by
  rw [ByteArray.utf8DecodeChar?_eq_utf8DecodeChar?_extract,
    ByteArray.extract_append_eq_right rfl ByteArray.size_append, List.utf8DecodeChar?_utf8Encode_cons]

/-- Reading on after some bytes gives the characters whose bytes follow. -/
theorem ofBytesFrom_append (cs : List Char) : ∀ (before : ByteArray) (fuel : Nat),
    cs.utf8Encode.size ≤ fuel → ofBytesFrom (before ++ cs.utf8Encode) fuel before.size = cs.map some := by
  induction cs with
  | nil =>
    intro before fuel _
    have hend : ¬before.size < (before ++ [].utf8Encode).size := by
      rw [List.utf8Encode_nil, ByteArray.append_empty]
      exact Nat.lt_irrefl _
    cases fuel with
    | zero => rfl
    | succ fuel => rw [ofBytesFrom, if_neg hend, List.map_nil]
  | cons c cs ih =>
    intro before fuel hfuel
    have hpos := c.utf8Size_pos
    rw [size_utf8Encode_cons] at hfuel
    obtain ⟨fuel, rfl⟩ := Nat.exists_eq_add_one.2 (Nat.lt_of_lt_of_le (Nat.add_pos_left hpos _) hfuel)
    have hbefore : before.size < (before ++ (c :: cs).utf8Encode).size := by
      rw [ByteArray.size_append, size_utf8Encode_cons]
      omega
    have hsplit : before ++ (c :: cs).utf8Encode = before ++ [c].utf8Encode ++ cs.utf8Encode := by
      rw [List.utf8Encode_cons, ByteArray.append_assoc]
    have hsize : before.size + c.utf8Size = (before ++ [c].utf8Encode).size := by
      rw [ByteArray.size_append, size_utf8Encode_cons, List.utf8Encode_nil, ByteArray.size_empty, Nat.add_zero]
    rw [ofBytesFrom, if_pos hbefore, utf8DecodeChar?_append]
    dsimp only
    rw [hsplit, hsize, ih _ fuel (by omega), List.map_cons]

/-- The bytes of a text are read into its characters. -/
theorem ofBytes_toUTF8 (text : String) : ofBytes text.toUTF8 = ofText text := by
  have h := ofBytesFrom_append text.toList .empty text.toUTF8.size
  rw [String.utf8Encode_toList, ByteArray.empty_append, ByteArray.size_empty] at h
  exact h (Nat.le_refl _)

end DeviceNaming.Json.Source
