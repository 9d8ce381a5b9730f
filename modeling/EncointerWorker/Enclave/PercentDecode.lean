import EncointerWorker.Enclave.Cert

/-!
  EncointerWorker.Enclave.PercentDecode — `percent_decode` (`enclave/src/cert.rs`), which
  decodes the percent-encoded IAS signing certificate of an attestation response.

  A Rust `String` is its sequence of characters (it is always valid UTF-8); byte offsets
  into it are counted in the characters' UTF-8 lengths.  The decoder splits the string at
  every `%`, keeps the first piece, and for every later piece reads the first two BYTES as
  a hex byte, pushes that byte as a `char` (`u8 as char`: the code point `0..255`) and
  copies the rest of the piece.

  Main results:
    * `percentDecode_of_encodes` — a string percent-encoded with ASCII escapes decodes back
      to itself.
    * `percent_decode_breaks_utf8` — the escaped UTF-8 bytes of `é` decode to the two
      characters `Ã©`, and a lone `%` panics.
-/

namespace EncointerWorker.Enclave

/-! ## §1. The decoder. -/

/-- `(&s[..n], &s[n..])` for a `str` given by its characters: `none` (a panic) unless byte
    `n` is a character boundary of the string. -/
def byteSplit : Nat → List Char → Option (List Char × List Char)
  | 0, cs => some ([], cs)
  | _ + 1, [] => none
  | n + 1, c :: cs =>
    if c.utf8Size ≤ n + 1 then (byteSplit (n + 1 - c.utf8Size) cs).map fun p => (c :: p.1, p.2)
    else none

/-- The UTF-8 bytes of a string. -/
def utf8Bytes (cs : List Char) : Bytes := cs.flatMap String.utf8EncodeChar

/-- The loop `for s in v[1..]` of `percent_decode`, `ret` the string built so far. -/
def decodeSegments : List Char → List (List Char) → Option (Except SgxStatus (List Char))
  | ret, [] => some (.ok ret)
  | ret, s :: segments =>
    -- `&s[0..2]` (and then `&s[2..]`) panics off a character boundary
    match byteSplit 2 s with
    | none => none
    | some (hex, rest) =>
      match fromStrRadix16 (utf8Bytes hex) with
      | none => some (.error .errorUnexpected)
      | some b => decodeSegments (ret ++ [Char.ofNat b.toNat] ++ rest) segments

/-- `percent_decode(orig)`; `none` is a panic. -/
def percentDecode (orig : List Char) : Option (Except SgxStatus (List Char)) :=
  match orig.splitOn '%' with
  -- `v[0]`: `split` yields at least one piece, so this does not happen
  | [] => none
  | first :: segments => decodeSegments first segments

/-! ## §2. Percent encodings. -/

/-- A hex digit, upper- or lowercase. -/
def hexChar (upper : Bool) (d : Nat) : Char :=
  if d < 10 then Char.ofNat (0x30 + d) else Char.ofNat ((if upper then 0x41 else 0x61) + d - 10)

/-- `%HH` for one byte. -/
def escapeByte (upper : Bool) (b : UInt8) : List Char :=
  ['%', hexChar upper (b.toNat / 16), hexChar upper (b.toNat % 16)]

/-- A character written as `%HH` for each of its UTF-8 bytes, each in its own case. -/
def escapeChar (uppers : List Bool) (c : Char) : List Char :=
  (List.zipWith escapeByte uppers (String.utf8EncodeChar c)).flatten

/-- `e` percent-encodes `s`: each character is copied, or written as the escapes of its
    UTF-8 bytes when it satisfies `P`; a `%` is never copied. -/
inductive PercentEncodes (P : Char → Prop) : List Char → List Char → Prop
  | nil : PercentEncodes P [] []
  | literal {c : Char} {s e : List Char} : c ≠ '%' → PercentEncodes P s e →
      PercentEncodes P (c :: s) (c :: e)
  | escaped {c : Char} {s e : List Char} (uppers : List Bool) : P c →
      uppers.length = (String.utf8EncodeChar c).length → PercentEncodes P s e →
      PercentEncodes P (c :: s) (escapeChar uppers c ++ e)

/-! ## §3. ASCII escapes decode back. -/

/-- Decoding from a list of pieces, with `ret` in front of the first. -/
def decodeAfter (ret : List Char) : List (List Char) → Option (Except SgxStatus (List Char))
  | [] => none
  | first :: segments => decodeSegments (ret ++ first) segments

theorem percentDecode_eq_decodeAfter (orig : List Char) :
    percentDecode orig = decodeAfter [] (orig.splitOn '%') := by
  unfold percentDecode
  cases orig.splitOn '%' with
  | nil => rfl
  | cons first segments => rfl

theorem hexChar_ascii (upper : Bool) : ∀ d, d < 16 → (hexChar upper d).val ≤ 127 ∧
    hexChar upper d ≠ '%' ∧ hexDigit (hexChar upper d).val.toUInt8 = some d
  | 0, _ | 1, _ | 2, _ | 3, _ | 4, _ | 5, _ | 6, _ | 7, _ | 8, _ | 9, _ | 10, _ | 11, _
  | 12, _ | 13, _ | 14, _ | 15, _ => by cases upper <;> decide
  | _ + 16, h => absurd h (by omega)

theorem fromStrRadix16_cons {x : UInt8} (h : x ≠ 0x2B) (rest : Bytes) :
    fromStrRadix16 (x :: rest) = (hexValue 0 (x :: rest)).map Nat.toUInt8 := by
  unfold fromStrRadix16
  split <;> simp_all

theorem toNat_lt_256 (b : UInt8) : b.toNat < 256 := by
  have := b.toBitVec.isLt
  simpa using this

/-- Two escape digits split off as two bytes and read back as the byte. -/
theorem decodeSegments_escape (upper : Bool) (b : UInt8) (ret first : List Char)
    (segments : List (List Char)) :
    decodeSegments ret ((hexChar upper (b.toNat / 16) :: hexChar upper (b.toNat % 16) :: first) ::
        segments) = decodeSegments (ret ++ [Char.ofNat b.toNat] ++ first) segments := by
  have hb := toNat_lt_256 b
  obtain ⟨hhi, -, hdhi⟩ := hexChar_ascii upper (b.toNat / 16) (by omega)
  obtain ⟨hlo, -, hdlo⟩ := hexChar_ascii upper (b.toNat % 16) (by omega)
  have hone : ∀ c : Char, c.val ≤ 127 → c.utf8Size = 1 := fun c h => Char.utf8Size_eq_one_iff.mpr h
  -- the two digits are one byte each, so byte `2` is the boundary after them
  have hsplit : byteSplit 2 (hexChar upper (b.toNat / 16) :: hexChar upper (b.toNat % 16) :: first) =
      some ([hexChar upper (b.toNat / 16), hexChar upper (b.toNat % 16)], first) := by
    simp [byteSplit, hone _ hhi, hone _ hlo]
  have hbytes : utf8Bytes [hexChar upper (b.toNat / 16), hexChar upper (b.toNat % 16)] =
      [(hexChar upper (b.toNat / 16)).val.toUInt8, (hexChar upper (b.toNat % 16)).val.toUInt8] := by
    simp [utf8Bytes, String.utf8EncodeChar_eq_singleton (hone _ hhi),
      String.utf8EncodeChar_eq_singleton (hone _ hlo)]
  have hplus : (hexChar upper (b.toNat / 16)).val.toUInt8 ≠ 0x2B := by
    intro h
    rw [h] at hdhi
    cases hdhi
  have hvalue : fromStrRadix16 (utf8Bytes [hexChar upper (b.toNat / 16),
      hexChar upper (b.toNat % 16)]) = some b := by
    rw [hbytes, fromStrRadix16_cons hplus]
    have hlt₁ : b.toNat / 16 < 256 := by omega
    have hlt₂ : b.toNat / 16 * 16 + b.toNat % 16 < 256 := by omega
    simp only [hexValue, hdhi, hdlo, Option.bind_eq_bind, Option.bind_some, Nat.zero_mul,
      Nat.zero_add, if_pos hlt₁, if_pos hlt₂, Option.map_some]
    rw [Nat.div_add_mod' b.toNat 16]
    simp
  rw [decodeSegments, hsplit]
  dsimp only
  rw [hvalue]

/-- An ASCII character is the byte of its code point. -/
theorem toUInt8_toNat_of_ascii {c : Char} (h : c.val ≤ 127) : c.val.toUInt8.toNat = c.toNat := by
  have hle : c.val.toNat ≤ 127 := by
    have := UInt32.le_iff_toNat_le.mp h
    simpa using this
  rw [UInt32.toNat_toUInt8, Nat.mod_eq_of_lt (by omega)]
  rfl

/-- An ASCII string has one UTF-8 byte per character. -/
theorem length_utf8Bytes_of_ascii : ∀ {s : List Char}, (∀ c ∈ s, c.val ≤ 127) →
    (utf8Bytes s).length = s.length
  | [], _ => rfl
  | c :: s, h => by
    have hc : c.utf8Size = 1 := Char.utf8Size_eq_one_iff.mpr (h c List.mem_cons_self)
    have hs := length_utf8Bytes_of_ascii fun d hd => h d (List.mem_cons_of_mem c hd)
    simp only [utf8Bytes, List.flatMap_cons, List.length_append] at hs ⊢
    rw [String.utf8EncodeChar_eq_singleton hc, hs]
    simp [Nat.add_comm]

/-- **ASCII escapes decode back.**  A string percent-encoded with escapes of ASCII characters
    only (and any characters copied) decodes to itself. -/
theorem percentDecode_of_encodes {s e : List Char}
    (h : PercentEncodes (fun c => c.val ≤ 127) s e) : percentDecode e = some (.ok s) := by
  rw [percentDecode_eq_decodeAfter]
  -- by induction on the encoding, with the decoded prefix `ret` generalized
  suffices hall : ∀ ret, decodeAfter ret (e.splitOn '%') = some (.ok (ret ++ s)) by
    simpa using hall []
  induction h with
  | nil =>
    intro ret
    simp [decodeAfter, decodeSegments]
  | @literal c s e hc _ ih =>
    intro ret
    rw [List.splitOn_cons_eq_if_modifyHead, if_neg (by simpa using hc)]
    obtain ⟨first, segments, hpieces⟩ := List.exists_cons_of_ne_nil (List.splitOn_ne_nil '%' e)
    have hrest := ih (ret ++ [c])
    rw [hpieces] at hrest ⊢
    simpa [decodeAfter] using hrest
  | @escaped c s e uppers hascii hlen _ ih =>
    intro ret
    -- an ASCII character is one byte, so one escape
    have hone : String.utf8EncodeChar c = [c.val.toUInt8] :=
      String.utf8EncodeChar_eq_singleton (Char.utf8Size_eq_one_iff.mpr hascii)
    rw [hone] at hlen
    obtain ⟨upper, rfl⟩ : ∃ upper, uppers = [upper] := by
      match uppers, hlen with
      | [upper], _ => exact ⟨upper, rfl⟩
    have hesc : escapeChar [upper] c = escapeByte upper c.val.toUInt8 := by
      simp [escapeChar, hone]
    obtain ⟨hhi, hne, -⟩ := hexChar_ascii upper (c.val.toUInt8.toNat / 16)
      (by have := toNat_lt_256 c.val.toUInt8; omega)
    obtain ⟨hlo, hne', -⟩ := hexChar_ascii upper (c.val.toUInt8.toNat % 16) (by omega)
    obtain ⟨first, segments, hpieces⟩ := List.exists_cons_of_ne_nil (List.splitOn_ne_nil '%' e)
    have hsplit : (escapeByte upper c.val.toUInt8 ++ e).splitOn '%' =
        [] :: (hexChar upper (c.val.toUInt8.toNat / 16) ::
          hexChar upper (c.val.toUInt8.toNat % 16) :: first) :: segments := by
      show ('%' :: hexChar upper (c.val.toUInt8.toNat / 16) ::
        hexChar upper (c.val.toUInt8.toNat % 16) :: e).splitOn '%' = _
      rw [List.splitOn_cons_eq_if_modifyHead, if_pos (by decide),
        List.splitOn_cons_eq_if_modifyHead, if_neg (by simpa using hne),
        List.splitOn_cons_eq_if_modifyHead, if_neg (by simpa using hne'), hpieces]
      rfl
    have hchar : Char.ofNat c.val.toUInt8.toNat = c := by
      rw [toUInt8_toNat_of_ascii hascii, Char.ofNat_toNat]
    have hrest := ih (ret ++ [c])
    rw [hpieces] at hrest
    rw [hesc, hsplit]
    simp only [decodeAfter, List.append_nil]
    rw [decodeSegments_escape, hchar]
    simpa [decodeAfter] using hrest

/-! ## §4. UTF-8 and short pieces. -/

/-- **`percent_decode` breaks on UTF-8 and on short pieces.**  `%C3%A9` percent-encodes `é`
    (its two UTF-8 bytes, escaped), but decodes to the two characters `U+00C3 U+00A9`
    (`Ã©`), each byte pushed as a `char` of its own; and the string `%` panics at `&s[0..2]`
    of the empty piece after it. -/
theorem percent_decode_breaks_utf8 :
    PercentEncodes (fun _ => True) ['é'] ['%', 'C', '3', '%', 'A', '9'] ∧
    percentDecode ['%', 'C', '3', '%', 'A', '9'] = some (.ok [Char.ofNat 0xC3, Char.ofNat 0xA9]) ∧
    [Char.ofNat 0xC3, Char.ofNat 0xA9] ≠ ['é'] ∧
    percentDecode ['%'] = none := by
  refine ⟨?_, by decide, by decide, by decide⟩
  have hesc : escapeChar [true, true] 'é' = ['%', 'C', '3', '%', 'A', '9'] := by decide
  rw [← List.append_nil ['%', 'C', '3', '%', 'A', '9'], ← hesc]
  exact .escaped [true, true] trivial (by decide) .nil

end EncointerWorker.Enclave
