import EncointerWorker.Enclave.PercentDecode

/-!
  EncointerWorker.Enclave.Hex — the hex encoder and decoder of `enclave/src/hex.rs`.

  A `str` is its characters, as in `Enclave.PercentDecode`.  `decode_hex` reads the
  characters two at a time: a space where a pair would start is skipped, a last character
  without a partner is an error, and each pair must be two hex digits of either case, high
  half first.  `encode_hex` writes every byte as two lowercase digits with
  `char::from_digit`, whose `None` would be a `panic!()`.

  Main results:
    * `decodeHex_loop_encoded` — the decoder reads the encoder's digits back, whatever
      follows them.
    * `decodeHex_loop_ok` — what the decoder accepts is `HexPairs`, and the bytes it returns
      encode back to the input without its spaces, in lowercase.
    * `hex_round_trip` — both round trips, and `decode_hex` fails, always with
      `SGX_ERROR_UNEXPECTED`, exactly on the strings that are not `HexPairs`.
-/

namespace EncointerWorker.Enclave

/-! ## §1. The code. -/

/-- `decode_hex_digit`: `digit as u8 - b'0'`, `- b'a' + 10` or `- b'A' + 10`. -/
def decodeHexDigit (digit : Char) : Except SgxStatus UInt8 :=
  if '0' ≤ digit ∧ digit ≤ '9' then .ok (digit.toNat.toUInt8 - 0x30)
  else if 'a' ≤ digit ∧ digit ≤ 'f' then .ok (digit.toNat.toUInt8 - 0x61 + 10)
  else if 'A' ≤ digit ∧ digit ≤ 'F' then .ok (digit.toNat.toUInt8 - 0x41 + 10)
  else .error .errorUnexpected

/-- `decode_hex(hex)`. -/
def decodeHex (hex : List Char) : Except SgxStatus (List UInt8) := loop hex []
where
  /-- The `loop` over `hex.chars()`, `r` the bytes pushed so far.  The position that
      `enumerate` adds is only logged. -/
  loop : List Char → List UInt8 → Except SgxStatus (List UInt8)
    | [], r => .ok r
    | first :: chars, r =>
      if first = ' ' then loop chars r
      else
        match chars with
        -- "Hex decode error at position = {}d"
        | [] => .error .errorUnexpected
        | second :: chars => do
          let hi ← decodeHexDigit first
          let lo ← decodeHexDigit second
          loop chars (r ++ [(hi <<< 4) ||| lo])

/-- `char::from_digit(num, radix)` for a radix of at most `36`: `'0'..'9'`, then lowercase
    letters. -/
def charFromDigit (num radix : Nat) : Option Char :=
  if num < radix then
    some (if num < 10 then Char.ofNat (0x30 + num) else Char.ofNat (0x61 + num - 10))
  else none

/-- `encode_hex_digit`; `none` is its `panic!()`. -/
def encodeHexDigit (digit : UInt8) : Option Char := charFromDigit digit.toNat 16

/-- `encode_hex_byte`: `[digit(byte >> 4), digit(byte & 0x0F)]`. -/
def encodeHexByte (byte : UInt8) : Option (List Char) := do
  let hi ← encodeHexDigit (byte >>> 4)
  let lo ← encodeHexDigit (byte &&& 0x0F)
  pure [hi, lo]

/-- `encode_hex`: the two characters of each byte collected into a `String`, and the strings
    joined with `""`. -/
def encodeHex (bytes : List UInt8) : Option (List Char) := do
  let strs ← bytes.mapM encodeHexByte
  pure strs.flatten

/-! ## §2. What the decoder accepts. -/

/-- The characters `decode_hex_digit` reads: `'0'..='9'`, `'a'..='f'`, `'A'..='F'`. -/
def IsHexDigit (c : Char) : Prop :=
  ('0' ≤ c ∧ c ≤ '9') ∨ ('a' ≤ c ∧ c ≤ 'f') ∨ ('A' ≤ c ∧ c ≤ 'F')

instance isHexDigitDecidable : DecidablePred IsHexDigit := fun c =>
  inferInstanceAs (Decidable ((('0' ≤ c ∧ c ≤ '9') ∨ ('a' ≤ c ∧ c ≤ 'f') ∨ ('A' ≤ c ∧ c ≤ 'F'))))

/-- Pairs of hex digits, with spaces standing where a pair would start. -/
inductive HexPairs : List Char → Prop
  | nil : HexPairs []
  | space {s : List Char} : HexPairs s → HexPairs (' ' :: s)
  | pair {c d : Char} {s : List Char} : IsHexDigit c → IsHexDigit d → HexPairs s →
      HexPairs (c :: d :: s)

/-- The input as `encode_hex` would write it: without its spaces, in lowercase. -/
def normalizeHex (s : List Char) : List Char := (s.filter (· ≠ ' ')).map Char.toLower

@[simp] theorem normalizeHex_nil : normalizeHex [] = [] := rfl

@[simp] theorem normalizeHex_space (s : List Char) : normalizeHex (' ' :: s) = normalizeHex s := by
  simp [normalizeHex]

theorem normalizeHex_cons {c : Char} (h : c ≠ ' ') (s : List Char) :
    normalizeHex (c :: s) = c.toLower :: normalizeHex s := by
  simp [normalizeHex, h]

/-! ## §3. One digit. -/

section Digit

theorem char_le_iff {a b : Char} : a ≤ b ↔ a.toNat ≤ b.toNat := by
  rw [Char.le_def, UInt32.le_iff_toNat_le, Char.toNat_val, Char.toNat_val]

theorem isHexDigit_iff_toNat {c : Char} : IsHexDigit c ↔
    (48 ≤ c.toNat ∧ c.toNat ≤ 57) ∨ (97 ≤ c.toNat ∧ c.toNat ≤ 102) ∨
      (65 ≤ c.toNat ∧ c.toNat ≤ 70) := by
  simp only [IsHexDigit, char_le_iff]
  exact Iff.rfl

/-- A code point below `128` is the character it names. -/
theorem toNat_ofNat_of_lt {n : Nat} (h : n < 128) : (Char.ofNat n).toNat = n := by
  have hvalid : n.isValidChar := Or.inl (by omega)
  rw [Char.ofNat, dif_pos hvalid]
  -- the character's value is the bit vector of `n` itself
  exact BitVec.toNat_ofNatLT _ _

theorem toLower_of_not_upper {c : Char} (h : c.toNat < 65 ∨ 90 < c.toNat) : c.toLower = c := by
  unfold Char.toLower
  rw [dif_neg]
  rintro ⟨h₁, h₂⟩
  rw [ge_iff_le, UInt32.le_iff_toNat_le] at h₁
  rw [UInt32.le_iff_toNat_le] at h₂
  change 65 ≤ c.toNat at h₁
  change c.toNat ≤ 90 at h₂
  omega

theorem toLower_of_upper {c : Char} (h₁ : 65 ≤ c.toNat) (h₂ : c.toNat ≤ 90) :
    c.toLower = Char.ofNat (c.toNat + 32) := by
  rw [← Char.toNat_inj, toNat_ofNat_of_lt (by omega)]
  unfold Char.toLower
  rw [dif_pos ⟨UInt32.le_iff_toNat_le.mpr h₁, UInt32.le_iff_toNat_le.mpr h₂⟩, Char.toNat_mk,
    UInt32.toNat_add]
  change (c.toNat + 32) % 2 ^ 32 = c.toNat + 32
  have hc : c.toNat < 2 ^ 32 - 32 := by omega
  omega

/-- `digit as u8 - k`, for a digit at or above `k`. -/
theorem toNat_toUInt8_sub {c : Char} {k : UInt8} (hk : k.toNat ≤ c.toNat) (hc : c.toNat < 256) :
    (c.toNat.toUInt8 - k).toNat = c.toNat - k.toNat := by
  have hself : c.toNat.toUInt8.toNat = c.toNat := by
    rw [Nat.toUInt8_eq, UInt8.toNat_ofNat']
    exact Nat.mod_eq_of_lt hc
  have hle : k ≤ c.toNat.toUInt8 := UInt8.le_iff_toNat_le.mpr (by rw [hself]; exact hk)
  rw [UInt8.toNat_sub_of_le _ _ hle, hself]

/-- `digit as u8 - k + 10`, for a letter among the six at or above `k`. -/
theorem toNat_toUInt8_sub_add_ten {c : Char} {k : UInt8} (hk : k.toNat ≤ c.toNat)
    (hc : c.toNat < k.toNat + 6) (hk' : k.toNat < 246) :
    (c.toNat.toUInt8 - k + 10).toNat = c.toNat - k.toNat + 10 := by
  rw [UInt8.toNat_add, toNat_toUInt8_sub hk (by omega)]
  change (c.toNat - k.toNat + 10) % 256 = _
  omega

/-- **What `decode_hex_digit` returns**, as numbers: the digit's value in its range. -/
theorem decodeHexDigit_eq_ok {c : Char} {v : UInt8} (h : decodeHexDigit c = .ok v) :
    (48 ≤ c.toNat ∧ c.toNat ≤ 57 ∧ v.toNat = c.toNat - 48) ∨
    (97 ≤ c.toNat ∧ c.toNat ≤ 102 ∧ v.toNat = c.toNat - 87) ∨
    (65 ≤ c.toNat ∧ c.toNat ≤ 70 ∧ v.toNat = c.toNat - 55) := by
  unfold decodeHexDigit at h
  simp only [char_le_iff] at h
  split_ifs at h with h₀ h₁ h₂ <;> cases h
  · -- `'0'..='9'`
    have h₀ : 48 ≤ c.toNat ∧ c.toNat ≤ 57 := h₀
    exact .inl ⟨h₀.1, h₀.2, toNat_toUInt8_sub (k := 0x30) h₀.1 (by omega)⟩
  · -- `'a'..='f'`
    have h₁ : 97 ≤ c.toNat ∧ c.toNat ≤ 102 := h₁
    have hv := toNat_toUInt8_sub_add_ten (k := 0x61) h₁.1 (by change _ < 103; omega) (by decide)
    exact .inr (.inl ⟨h₁.1, h₁.2, hv.trans (by change c.toNat - 97 + 10 = _; omega)⟩)
  · -- `'A'..='F'`
    have h₂ : 65 ≤ c.toNat ∧ c.toNat ≤ 70 := h₂
    have hv := toNat_toUInt8_sub_add_ten (k := 0x41) h₂.1 (by change _ < 71; omega) (by decide)
    exact .inr (.inr ⟨h₂.1, h₂.2, hv.trans (by change c.toNat - 65 + 10 = _; omega)⟩)

/-- **A digit the decoder reads is written back in lowercase**: `char::from_digit` of its
    value is the digit itself, or for `'A'..='F'` the letter `32` code points above. -/
theorem encodeHexDigit_of_decode {c : Char} {v : UInt8} (h : decodeHexDigit c = .ok v) :
    v.toNat < 16 ∧ encodeHexDigit v = some c.toLower := by
  unfold encodeHexDigit charFromDigit
  rcases decodeHexDigit_eq_ok h with ⟨h₁, h₂, hv⟩ | ⟨h₁, h₂, hv⟩ | ⟨h₁, h₂, hv⟩
  · -- a decimal digit is its own character, and not a capital
    rw [if_pos (by omega), if_pos (by omega), toLower_of_not_upper (by omega), hv,
      show 0x30 + (c.toNat - 48) = c.toNat by omega, Char.ofNat_toNat]
    exact ⟨by omega, rfl⟩
  · rw [if_pos (by omega), if_neg (by omega), toLower_of_not_upper (by omega), hv,
      show 0x61 + (c.toNat - 87) - 10 = c.toNat by omega, Char.ofNat_toNat]
    exact ⟨by omega, rfl⟩
  · -- a capital comes back as its small letter
    rw [if_pos (by omega), if_neg (by omega), toLower_of_upper h₁ (by omega), hv,
      show 0x61 + (c.toNat - 55) - 10 = c.toNat + 32 by omega]
    exact ⟨by omega, rfl⟩

/-- The sixteen digits `char::from_digit` writes, each read back as its value. -/
theorem charFromDigit_decode : ∀ n, n < 16 →
    ∃ c, charFromDigit n 16 = some c ∧ c ≠ ' ' ∧ decodeHexDigit c = .ok n.toUInt8
  | 0, _ | 1, _ | 2, _ | 3, _ | 4, _ | 5, _ | 6, _ | 7, _ | 8, _ | 9, _ | 10, _ | 11, _
  | 12, _ | 13, _ | 14, _ | 15, _ => ⟨_, rfl, by decide, rfl⟩
  | _ + 16, h => absurd h (by omega)

/-- **Where `decode_hex_digit` succeeds**: `Ok` on a digit, `Err(SGX_ERROR_UNEXPECTED)` on
    anything else. -/
theorem decodeHexDigit_cases (c : Char) :
    (IsHexDigit c ∧ ∃ v, decodeHexDigit c = .ok v) ∨
      (¬ IsHexDigit c ∧ decodeHexDigit c = .error .errorUnexpected) := by
  unfold decodeHexDigit IsHexDigit
  split_ifs with h₀ h₁ h₂
  · exact .inl ⟨.inl h₀, _, rfl⟩
  · exact .inl ⟨.inr (.inl h₁), _, rfl⟩
  · exact .inl ⟨.inr (.inr h₂), _, rfl⟩
  · -- past the three ranges
    exact .inr ⟨fun h => h.elim h₀ (·.elim h₁ h₂), rfl⟩

theorem decodeHexDigit_ok_iff {c : Char} : (∃ v, decodeHexDigit c = .ok v) ↔ IsHexDigit c := by
  rcases decodeHexDigit_cases c with ⟨hc, hok⟩ | ⟨hc, herr⟩
  · exact ⟨fun _ => hc, fun _ => hok⟩
  · refine ⟨fun ⟨v, hv⟩ => ?_, fun h => absurd h hc⟩
    rw [herr] at hv
    cases hv

theorem decodeHexDigit_eq_error {c : Char} {e : SgxStatus} (h : decodeHexDigit c = .error e) :
    e = .errorUnexpected ∧ ¬ IsHexDigit c := by
  rcases decodeHexDigit_cases c with ⟨-, v, hv⟩ | ⟨hc, herr⟩
  · rw [hv] at h
    cases h
  · rw [herr] at h
    cases h
    exact ⟨rfl, hc⟩

theorem IsHexDigit.ne_space {c : Char} (h : IsHexDigit c) : c ≠ ' ' := by
  rintro rfl
  revert h
  decide

end Digit

/-! ## §4. One byte. -/

section Byte

theorem toNat_shiftRight_four (b : UInt8) : (b >>> 4).toNat = b.toNat / 16 := by
  rw [UInt8.toNat_shiftRight, Nat.shiftRight_eq_div_pow]
  rfl

theorem toNat_and_fifteen (b : UInt8) : (b &&& 0x0F).toNat = b.toNat % 16 := by
  rw [UInt8.toNat_and]
  exact Nat.and_two_pow_sub_one_eq_mod b.toNat 4

/-- `(hi << 4) | lo` of two digits is `16 * hi + lo`. -/
theorem toNat_hexByte {hi lo : UInt8} (hhi : hi.toNat < 16) (hlo : lo.toNat < 16) :
    ((hi <<< 4) ||| lo).toNat = 16 * hi.toNat + lo.toNat := by
  have hshift : (hi <<< 4).toNat = hi.toNat <<< 4 := by
    rw [UInt8.toNat_shiftLeft]
    change hi.toNat <<< 4 % 2 ^ 8 = hi.toNat <<< 4
    rw [Nat.shiftLeft_eq]
    omega
  rw [UInt8.toNat_or, hshift, ← Nat.shiftLeft_add_eq_or_of_lt (by omega), Nat.shiftLeft_eq]
  omega

/-- A byte is its two halves put back together. -/
theorem hexByte_halves (b : UInt8) : ((b >>> 4) <<< 4) ||| (b &&& 0x0F) = b := by
  have hb := toNat_lt_256 b
  rw [← UInt8.toNat_inj, toNat_hexByte (by rw [toNat_shiftRight_four]; omega)
    (by rw [toNat_and_fifteen]; omega), toNat_shiftRight_four, toNat_and_fifteen]
  omega

/-- The halves of `(hi << 4) | lo` are `hi` and `lo`. -/
theorem halves_hexByte {hi lo : UInt8} (hhi : hi.toNat < 16) (hlo : lo.toNat < 16) :
    ((hi <<< 4) ||| lo) >>> 4 = hi ∧ ((hi <<< 4) ||| lo) &&& 0x0F = lo := by
  constructor
  · rw [← UInt8.toNat_inj, toNat_shiftRight_four, toNat_hexByte hhi hlo]
    omega
  · rw [← UInt8.toNat_inj, toNat_and_fifteen, toNat_hexByte hhi hlo]
    omega

end Byte

/-! ## §5. The encoder and the decoder loop, one step at a time. -/

section Steps

theorem except_bind_eq_ok {ε α β : Type} {x : Except ε α} {f : α → Except ε β} {b : β}
    (h : (x >>= f) = .ok b) : ∃ a, x = .ok a ∧ f a = .ok b := by
  cases x with
  | error _ => cases h
  | ok a => exact ⟨a, rfl, h⟩

theorem except_bind_eq_error {ε α β : Type} {x : Except ε α} {f : α → Except ε β} {e : ε}
    (h : (x >>= f) = .error e) : x = .error e ∨ ∃ a, x = .ok a ∧ f a = .error e := by
  cases x with
  | error e' =>
    cases h
    exact .inl rfl
  | ok a => exact .inr ⟨a, rfl, h⟩

/-- **`encode_hex_byte` never panics**: it writes the byte's two halves, and the decoder reads
    each back. -/
theorem encodeHexByte_decode (b : UInt8) :
    ∃ hi lo, encodeHexByte b = some [hi, lo] ∧ hi ≠ ' ' ∧
      decodeHexDigit hi = .ok (b >>> 4) ∧ decodeHexDigit lo = .ok (b &&& 0x0F) := by
  have hb := toNat_lt_256 b
  obtain ⟨hi, hhi, hsp, hdhi⟩ :=
    charFromDigit_decode (b >>> 4).toNat (by rw [toNat_shiftRight_four]; omega)
  obtain ⟨lo, hlo, -, hdlo⟩ :=
    charFromDigit_decode (b &&& 0x0F).toNat (by rw [toNat_and_fifteen]; omega)
  rw [Nat.toUInt8_eq, UInt8.ofNat_toNat] at hdhi hdlo
  refine ⟨hi, lo, ?_, hsp, hdhi, hdlo⟩
  rw [encodeHexByte, encodeHexDigit, encodeHexDigit, hhi, hlo]
  rfl

@[simp] theorem encodeHex_nil : encodeHex [] = some [] := rfl

theorem encodeHex_cons (b : UInt8) (bs : List UInt8) :
    encodeHex (b :: bs) = (encodeHexByte b).bind fun cs => (encodeHex bs).map (cs ++ ·) := by
  unfold encodeHex
  simp only [List.mapM_cons]
  cases encodeHexByte b <;> cases bs.mapM encodeHexByte <;> rfl

@[simp] theorem decodeHex_loop_nil (r : List UInt8) : decodeHex.loop [] r = .ok r := rfl

/-- A space where a pair would start is skipped (`continue`). -/
@[simp] theorem decodeHex_loop_space (chars : List Char) (r : List UInt8) :
    decodeHex.loop (' ' :: chars) r = decodeHex.loop chars r := by
  -- the equations of the loop split on whether a second character follows
  cases chars with
  | nil => exact if_pos rfl
  | cons second chars => exact if_pos rfl

/-- A last character without a partner is an error. -/
theorem decodeHex_loop_single {first : Char} (h : first ≠ ' ') (r : List UInt8) :
    decodeHex.loop [first] r = .error .errorUnexpected :=
  if_neg h

/-- A pair reads its two digits, high half first, and pushes the byte. -/
theorem decodeHex_loop_pair {first : Char} (h : first ≠ ' ') (second : Char) (chars : List Char)
    (r : List UInt8) :
    decodeHex.loop (first :: second :: chars) r =
      (decodeHexDigit first >>= fun hi => decodeHexDigit second >>= fun lo =>
        decodeHex.loop chars (r ++ [(hi <<< 4) ||| lo])) :=
  if_neg h

end Steps

/-! ## §6. The round trips. -/

section RoundTrip

/-- **The decoder reads the encoder's digits back**, whatever follows them. -/
theorem decodeHex_loop_encoded (bytes : List UInt8) :
    ∃ cs, encodeHex bytes = some cs ∧
      ∀ rest r, decodeHex.loop (cs ++ rest) r = decodeHex.loop rest (r ++ bytes) := by
  induction bytes with
  | nil => exact ⟨[], rfl, fun rest r => by simp⟩
  | cons b bs ih =>
    obtain ⟨cs, hcs, hloop⟩ := ih
    obtain ⟨hi, lo, hbyte, hsp, hdhi, hdlo⟩ := encodeHexByte_decode b
    refine ⟨hi :: lo :: cs, by rw [encodeHex_cons, hbyte, hcs]; rfl, fun rest r => ?_⟩
    -- the byte's pair, then the encoding of the other bytes
    show decodeHex.loop (hi :: lo :: (cs ++ rest)) r = _
    rw [decodeHex_loop_pair hsp, hdhi, hdlo]
    show decodeHex.loop (cs ++ rest) (r ++ [((b >>> 4) <<< 4) ||| (b &&& 0x0F)]) = _
    rw [hexByte_halves, hloop, List.append_assoc, List.singleton_append]

/-- **What the decoder accepts**: the string is `HexPairs`, and the bytes pushed encode back
    to it without its spaces, in lowercase. -/
theorem decodeHex_loop_ok {s : List Char} {r out : List UInt8}
    (h : decodeHex.loop s r = .ok out) :
    HexPairs s ∧ ∃ bs, out = r ++ bs ∧ encodeHex bs = some (normalizeHex s) := by
  induction s, r using decodeHex.loop.induct with
  | case1 r =>
    cases h
    exact ⟨.nil, [], by simp, rfl⟩
  | case2 chars r ih =>
    rw [decodeHex_loop_space] at h
    obtain ⟨hpairs, bs, rfl, henc⟩ := ih h
    exact ⟨.space hpairs, bs, rfl, by rw [normalizeHex_space, henc]⟩
  | case3 first r hfirst =>
    rw [decodeHex_loop_single hfirst] at h
    cases h
  | case4 first r hfirst second chars ih =>
    rw [decodeHex_loop_pair hfirst] at h
    obtain ⟨hi, hhi, h⟩ := except_bind_eq_ok h
    obtain ⟨lo, hlo, h⟩ := except_bind_eq_ok h
    obtain ⟨hpairs, bs, rfl, henc⟩ := ih hi lo h
    obtain ⟨hi16, hehi⟩ := encodeHexDigit_of_decode hhi
    obtain ⟨lo16, helo⟩ := encodeHexDigit_of_decode hlo
    have hsecond : IsHexDigit second := decodeHexDigit_ok_iff.mp ⟨lo, hlo⟩
    obtain ⟨hshi, hslo⟩ := halves_hexByte hi16 lo16
    refine ⟨.pair (decodeHexDigit_ok_iff.mp ⟨hi, hhi⟩) hsecond hpairs,
      ((hi <<< 4) ||| lo) :: bs, by simp, ?_⟩
    -- the pushed byte is written back as the two digits, in lowercase
    have hbyte : encodeHexByte ((hi <<< 4) ||| lo) = some [first.toLower, second.toLower] := by
      rw [encodeHexByte, hshi, hslo, hehi, helo]
      rfl
    rw [encodeHex_cons, hbyte, henc, normalizeHex_cons hfirst,
      normalizeHex_cons hsecond.ne_space]
    rfl

/-- Every error of the decoder is `SGX_ERROR_UNEXPECTED`. -/
theorem decodeHex_loop_error {s : List Char} {r : List UInt8} {e : SgxStatus}
    (h : decodeHex.loop s r = .error e) : e = .errorUnexpected := by
  induction s, r using decodeHex.loop.induct with
  | case1 r => cases h
  | case2 chars r ih =>
    rw [decodeHex_loop_space] at h
    exact ih h
  | case3 first r hfirst =>
    rw [decodeHex_loop_single hfirst] at h
    cases h
    rfl
  | case4 first r hfirst second chars ih =>
    rw [decodeHex_loop_pair hfirst] at h
    -- the first digit, the second digit, or the rest of the string failed
    rcases except_bind_eq_error h with hhi | ⟨hi, -, h⟩
    · exact (decodeHexDigit_eq_error hhi).1
    rcases except_bind_eq_error h with hlo | ⟨lo, -, h⟩
    · exact (decodeHexDigit_eq_error hlo).1
    exact ih hi lo h

/-- The decoder accepts every string of `HexPairs`. -/
theorem decodeHex_loop_of_hexPairs {s : List Char} (h : HexPairs s) (r : List UInt8) :
    ∃ bs, decodeHex.loop s r = .ok (r ++ bs) := by
  induction h generalizing r with
  | nil => exact ⟨[], by simp⟩
  | space _ ih =>
    obtain ⟨bs, hbs⟩ := ih r
    exact ⟨bs, by rw [decodeHex_loop_space, hbs]⟩
  | pair hc hd _ ih =>
    obtain ⟨hi, hhi⟩ := decodeHexDigit_ok_iff.mpr hc
    obtain ⟨lo, hlo⟩ := decodeHexDigit_ok_iff.mpr hd
    obtain ⟨bs, hbs⟩ := ih (r ++ [(hi <<< 4) ||| lo])
    refine ⟨((hi <<< 4) ||| lo) :: bs, ?_⟩
    rw [decodeHex_loop_pair hc.ne_space, hhi, hlo]
    show decodeHex.loop _ (r ++ [(hi <<< 4) ||| lo]) = _
    rw [hbs, List.append_assoc, List.singleton_append]

/-- **`decode_hex` and `encode_hex` are inverse**: encoding never panics and decodes back;
    decoding returns bytes that encode back to the input without its spaces, in lowercase;
    the decoder accepts exactly `HexPairs`, and fails on everything else with
    `SGX_ERROR_UNEXPECTED`. -/
theorem hex_round_trip :
    (∀ bytes : List UInt8, ∃ s, encodeHex bytes = some s ∧ decodeHex s = .ok bytes) ∧
    (∀ (s : List Char) (bytes : List UInt8), decodeHex s = .ok bytes →
      encodeHex bytes = some (normalizeHex s)) ∧
    (∀ s : List Char, (∃ bytes, decodeHex s = .ok bytes) ↔ HexPairs s) ∧
    (∀ s : List Char, decodeHex s = .error .errorUnexpected ↔ ¬ HexPairs s) := by
  refine ⟨fun bytes => ?_, fun s bytes h => ?_, fun s => ⟨?_, ?_⟩, fun s => ⟨?_, ?_⟩⟩
  · -- encode, then decode with nothing after the digits
    obtain ⟨cs, hcs, hloop⟩ := decodeHex_loop_encoded bytes
    have h := hloop [] []
    rw [List.append_nil, List.nil_append, decodeHex_loop_nil] at h
    exact ⟨cs, hcs, h⟩
  · obtain ⟨-, bs, rfl, henc⟩ := decodeHex_loop_ok h
    exact henc
  · rintro ⟨bytes, h⟩
    exact (decodeHex_loop_ok h).1
  · intro hs
    obtain ⟨bs, h⟩ := decodeHex_loop_of_hexPairs hs []
    exact ⟨_, h⟩
  · intro h hs
    obtain ⟨bs, hok⟩ := decodeHex_loop_of_hexPairs hs []
    rw [decodeHex, hok] at h
    cases h
  · intro hs
    unfold decodeHex
    cases hloop : decodeHex.loop s [] with
    | ok bytes => exact absurd (decodeHex_loop_ok hloop).1 hs
    | error e => rw [decodeHex_loop_error hloop]

/-- The source's tests: `decode_hex("fa19")` and `encode_hex(&[0x01, 0xa2, 0x1a, 0xfe])`. -/
example : decodeHex "fa19".toList = .ok [0xfa, 0x19] := rfl

example : encodeHex [0x01, 0xa2, 0x1a, 0xfe] = some "01a21afe".toList := rfl

/-- A space inside a pair is read as a digit, and fails. -/
example : decodeHex "a b".toList = .error .errorUnexpected := rfl

end RoundTrip

/-! ## §7. The SPID file.

  `decode_spid` reads the service provider id the enclave attests with from the host's SPID
  file: it trims the text, rejects it below `16 * 2` bytes, decodes it and copies the first
  sixteen bytes.  The length check counts the spaces the decoder skips, so a text of `32`
  characters with spaces between its pairs decodes to fewer than sixteen bytes, and the slice
  `&decoded_vec[..16]` panics. -/

section Spid

/-- `sgx_spid_t`: sixteen bytes. -/
structure SgxSpid where
  id : List UInt8
  id_length : id.length = 16

/-- `char::is_whitespace`: the characters of Unicode's `White_Space` property. -/
def isWhitespace (c : Char) : Bool :=
  c = ' ' || ('\x09' ≤ c && c ≤ '\x0d') ||
    ('\x7f' < c && (c = '\x85' || c = '\xa0' || c = '\u1680' ||
      ('\u2000' ≤ c && c ≤ '\u200a') || c = '\u2028' || c = '\u2029' ||
      c = '\u202f' || c = '\u205f' || c = '\u3000'))

/-- `str::trim`: without leading and trailing whitespace. -/
def trim (s : List Char) : List Char :=
  ((s.dropWhile isWhitespace).reverse.dropWhile isWhitespace).reverse

/-- `decode_spid(hex)`; `none` is the panic of `&decoded_vec[..16]`. -/
def decodeSpid (hex : List Char) : Option (Except SgxStatus SgxSpid) :=
  let hex := trim hex
  -- "Input spid file len ({}) is incorrect!": `len` counts UTF-8 bytes
  if (utf8Bytes hex).length < 16 * 2 then some (.error .errorUnexpected)
  else
    match decodeHex hex with
    | .error e => some (.error e)
    | .ok decodedVec =>
      if h : 16 ≤ decodedVec.length then
        some (.ok ⟨decodedVec.take 16, by rw [List.length_take]; omega⟩)
      else none

theorem IsHexDigit.val_le {c : Char} (h : IsHexDigit c) : c.val ≤ 127 := by
  rw [isHexDigit_iff_toNat] at h
  rw [UInt32.le_iff_toNat_le, Char.toNat_val]
  change _ ≤ 127
  omega

/-- The characters of `HexPairs` are ASCII. -/
theorem HexPairs.val_le {s : List Char} (h : HexPairs s) : ∀ c ∈ s, c.val ≤ 127 := by
  induction h with
  | nil => simp
  | space _ ih =>
    intro c hc
    rcases List.mem_cons.mp hc with rfl | hc
    · decide
    · exact ih c hc
  | pair hc hd _ ih =>
    intro e he
    simp only [List.mem_cons] at he
    rcases he with rfl | rfl | he
    · exact hc.val_le
    · exact hd.val_le
    · exact ih e he

/-- `encode_hex` writes two characters a byte. -/
theorem length_of_encodeHex : ∀ {bs : List UInt8} {cs : List Char}, encodeHex bs = some cs →
    cs.length = 2 * bs.length
  | [], _, h => by
    cases h
    rfl
  | b :: bs, cs, h => by
    obtain ⟨hi, lo, hbyte, -⟩ := encodeHexByte_decode b
    rw [encodeHex_cons, hbyte] at h
    cases henc : encodeHex bs with
    | none =>
      rw [henc] at h
      cases h
    | some ds =>
      rw [henc] at h
      cases h
      rw [List.length_append, length_of_encodeHex henc]
      simp only [List.length_cons, List.length_nil, List.length_cons]
      omega

/-- What the length check of `decode_spid` sees of a text `decode_hex` accepts: it is ASCII,
    and its digits are two a decoded byte. -/
theorem decodeHex_eq_ok_length {s : List Char} {bs : List UInt8} (h : decodeHex s = .ok bs) :
    HexPairs s ∧ (utf8Bytes s).length = s.length ∧ (normalizeHex s).length = 2 * bs.length := by
  obtain ⟨hpairs, bs', hbs, henc⟩ := decodeHex_loop_ok h
  rw [List.nil_append] at hbs
  subst hbs
  exact ⟨hpairs, length_utf8Bytes_of_ascii hpairs.val_le, length_of_encodeHex henc⟩

/-- **`decode_spid` panics exactly** on a trimmed text of at least `32` characters that
    decodes, but to fewer than sixteen bytes: fewer than `32` of its characters are digits. -/
theorem decodeSpid_eq_none_iff (hex : List Char) :
    decodeSpid hex = none ↔
      32 ≤ (trim hex).length ∧ HexPairs (trim hex) ∧ (normalizeHex (trim hex)).length < 32 := by
  unfold decodeSpid
  dsimp only
  constructor
  · intro h
    split_ifs at h with hlen
    cases hdec : decodeHex (trim hex) with
    | error e =>
      rw [hdec] at h
      cases h
    | ok bs =>
      rw [hdec] at h
      dsimp only at h
      split_ifs at h with h16
      -- the length passed, but fewer than sixteen bytes came out
      obtain ⟨hpairs, hascii, hnorm⟩ := decodeHex_eq_ok_length hdec
      exact ⟨by omega, hpairs, by omega⟩
  · rintro ⟨hlen, hpairs, hshort⟩
    obtain ⟨bs, hdec⟩ := decodeHex_loop_of_hexPairs hpairs []
    rw [List.nil_append] at hdec
    have hdec' : decodeHex (trim hex) = .ok bs := hdec
    obtain ⟨-, hascii, hnorm⟩ := decodeHex_eq_ok_length hdec'
    rw [if_neg (by omega), hdec']
    dsimp only
    rw [dif_neg (by omega)]

/-- Eleven pairs and ten spaces: `32` characters, eleven bytes, and the slice panics. -/
example : decodeSpid ((List.replicate 10 ['0', '0', ' ']).flatten ++ ['0', '0']) = none := by
  decide

end Spid

end EncointerWorker.Enclave
