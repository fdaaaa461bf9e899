/-!
# Characters in bytes

A character is encoded in UTF-8 by one to four bytes.  Read from the front, any bytes fall into
encodings of characters and single bytes that belong to no character.
-/

namespace Triage.Text

/-- What was read, in reverse, followed by the characters that the bytes from `i` on encode; none
stands for a byte at which no encoding begins. -/
def charactersFrom (bytes : ByteArray) (i : Nat) (done : List (Option Char)) :
    List (Option Char) :=
  if i < bytes.size then
    match bytes.utf8DecodeChar? i with
    | some c => charactersFrom bytes (i + c.utf8Size) (some c :: done)
    | none => charactersFrom bytes (i + 1) (none :: done)
  else done.reverse
termination_by bytes.size - i
decreasing_by
  · have := c.utf8Size_pos
    omega
  · omega

/-- The characters that the bytes encode, with none for each byte that belongs to no character. -/
def characters (bytes : ByteArray) : List (Option Char) := charactersFrom bytes 0 []

theorem charactersFrom_append (before : ByteArray) (cs : List Char) (done : List (Option Char)) :
    charactersFrom (before ++ cs.utf8Encode) before.size done = done.reverse ++ cs.map some := by
  induction cs generalizing before done with
  | nil => rw [charactersFrom]; simp
  | cons c cs ih =>
    have hcut : before ++ (c :: cs).utf8Encode = (before ++ [c].utf8Encode) ++ cs.utf8Encode := by
      rw [ByteArray.append_assoc, ← List.utf8Encode_append, List.singleton_append]
    have hsize : (before ++ [c].utf8Encode).size = before.size + c.utf8Size := by
      simp [List.utf8Encode_singleton]
    have hlt : before.size < (before ++ (c :: cs).utf8Encode).size := by
      have := c.utf8Size_pos
      rw [hcut, ByteArray.size_append, hsize]
      omega
    have hchar : (before ++ (c :: cs).utf8Encode).utf8DecodeChar? before.size = some c := by
      rw [ByteArray.utf8DecodeChar?_eq_utf8DecodeChar?_extract,
        ByteArray.extract_append_eq_right rfl (ByteArray.size_append ..),
        List.utf8DecodeChar?_utf8Encode_cons]
    rw [charactersFrom, if_pos hlt, hchar]
    simp only
    rw [hcut, ← hsize, ih]
    simp

/-- The bytes of a text are those of its characters, with none besides. -/
theorem characters_toUTF8 (s : String) : characters s.toUTF8 = s.toList.map some := by
  have h := charactersFrom_append .empty s.toList []
  simpa [characters, String.toUTF8_eq_toByteArray] using h

end Triage.Text
