import Mathlib.Data.List.Basic

/-!
  EncointerWorker.Lib.Utf8 — the bytes of a string, as a list.

  `s.toUTF8.toList` is how Rust's `s.as_bytes().to_vec()` reads in Lean, and storage keys and
  names are built from it.  Both steps are loops by well-founded recursion
  (`ByteArray.toList` walks the array by index), so neither `decide` nor `rfl` evaluates them
  on a literal, and only the kernel does.  The one lemma here turns them into a `flatMap` of
  `String.utf8EncodeChar` over the characters, which `decide` evaluates.

  Main results:
    * `byteArray_toList_eq` — `ByteArray.toList` is the list of the underlying array.
    * `toUTF8_toList` — the UTF-8 bytes of a string, character by character.
-/

namespace EncointerWorker.Lib

/-- The loop of `ByteArray.toList` from index `i`, with the bytes before it pushed in reverse
    onto `r`. -/
theorem byteArray_toList_loop (bs : ByteArray) (i : Nat) (r : List UInt8) :
    ByteArray.toList.loop bs i r = r.reverse ++ bs.data.toList.drop i := by
  induction i, r using ByteArray.toList.loop.induct bs with
  | case1 i r hi ih =>
    -- the byte at `i` is pushed, and the loop goes on from `i + 1`
    rw [ByteArray.toList.loop, if_pos hi, ih]
    have hi' : i < bs.data.toList.length := by rw [Array.length_toList]; exact hi
    rw [List.drop_eq_getElem_cons hi']
    simp [ByteArray.get!, hi]
  | case2 i r hi =>
    rw [ByteArray.toList.loop, if_neg hi]
    have hi' : bs.data.toList.length ≤ i := by rw [Array.length_toList]; exact Nat.le_of_not_lt hi
    simp [List.drop_eq_nil_of_le hi']

theorem byteArray_toList_eq (bs : ByteArray) : bs.toList = bs.data.toList := by
  rw [ByteArray.toList, byteArray_toList_loop]
  simp

/-- **The UTF-8 bytes of a string** are the encodings of its characters, one after another. -/
theorem toUTF8_toList (s : String) : s.toUTF8.toList = s.toList.flatMap String.utf8EncodeChar := by
  rw [byteArray_toList_eq, String.toUTF8_eq_toByteArray, ← String.utf8Encode_toList,
    List.utf8Encode, List.toList_data_toByteArray]

example : "EncointerScheduler".toUTF8.toList ≠ "System".toUTF8.toList := by
  rw [toUTF8_toList, toUTF8_toList]
  decide

end EncointerWorker.Lib
