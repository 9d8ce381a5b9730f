import Mathlib.Data.Nat.Digits.Defs
import EncointerWorker.Lib.Code

/-!
  EncointerWorker.Lib.Scale — the parts of the SCALE codec (parity-scale-codec) that signed
  payloads are made of: little-endian fixed-width integers, the compact encoding of a length,
  `Option<T>` and `Vec<T>`.

  `Compact<u32>` is self-delimiting on the values a `u32` holds: the two low bits of its first
  byte say how many bytes follow.  A `Vec<T>` longer than that cannot be encoded (the codec
  panics), so the `Vec` rule below is stated for shorter lists.

  Main results:
    * `fromLeBytes_leBytes` — fixed-width little-endian bytes read back modulo the width.
    * `compact_append_inj` — a compact length splits off the front of a message.
    * `encodeOption_selfDelimiting`, `encodeVec_append_inj` — the `Option` and `Vec` rules.
-/

namespace EncointerWorker.Lib

variable {α : Type}

/-! ## §1. Little-endian fixed-width integers. -/

/-- The `k` little-endian bytes of `n` (`to_le_bytes`, and SCALE's fixed-width integers). -/
def leBytes : Nat → Nat → List UInt8
  | 0, _ => []
  | k + 1, n => (n % 256).toUInt8 :: leBytes k (n / 256)

/-- `from_le_bytes`. -/
def fromLeBytes (bs : List UInt8) : Nat := Nat.ofDigits 256 (bs.map UInt8.toNat)

@[simp] theorem length_leBytes (k n : Nat) : (leBytes k n).length = k := by
  induction k generalizing n with
  | zero => rfl
  | succ k ih => simp [leBytes, ih]

theorem fromLeBytes_cons (b : UInt8) (bs : List UInt8) :
    fromLeBytes (b :: bs) = b.toNat + 256 * fromLeBytes bs := by
  simp [fromLeBytes, Nat.ofDigits_cons]

theorem toNat_mod_toUInt8 (n : Nat) : ((n % 256).toUInt8).toNat = n % 256 := by
  simp [Nat.mod_eq_of_lt (Nat.mod_lt n (by decide : 0 < 256))]

/-- The bytes read back as the value, modulo the width. -/
theorem fromLeBytes_leBytes (k n : Nat) : fromLeBytes (leBytes k n) = n % 256 ^ k := by
  induction k generalizing n with
  | zero =>
    show Nat.ofDigits 256 [] = n % 1
    rw [Nat.mod_one]
    rfl
  | succ k ih =>
    rw [leBytes, fromLeBytes_cons, ih, pow_succ, toNat_mod_toUInt8,
      Nat.mul_comm (256 ^ k) 256, Nat.mod_mul]

theorem leBytes_inj {k m n : Nat} (hm : m < 256 ^ k) (hn : n < 256 ^ k)
    (h : leBytes k m = leBytes k n) : m = n := by
  have hread := congrArg fromLeBytes h
  rwa [fromLeBytes_leBytes, fromLeBytes_leBytes, Nat.mod_eq_of_lt hm,
    Nat.mod_eq_of_lt hn] at hread

theorem leBytes_append_take {k n : Nat} (r : List UInt8) : (leBytes k n ++ r).take k = leBytes k n :=
  List.take_left' (length_leBytes k n)

theorem leBytes_append_drop {k n : Nat} (r : List UInt8) : (leBytes k n ++ r).drop k = r :=
  List.drop_left' (length_leBytes k n)

/-! ## §2. The compact encoding of a length. -/

/-- `Compact<u32>::encode`: the value shifted left by two in one, two or four bytes, its low
    two bits `0b00`, `0b01`, `0b10` naming the width; above `2^30`, the marker `0b11` and
    the four bytes of the value. -/
def compact (n : Nat) : List UInt8 :=
  if n < 2 ^ 6 then leBytes 1 (n * 4)
  else if n < 2 ^ 14 then leBytes 2 (n * 4 + 1)
  else if n < 2 ^ 30 then leBytes 4 (n * 4 + 2)
  else 3 :: leBytes 4 n

/-- Reads a compact value off the front of a message, by the mode in its first byte. -/
def decodeCompact : List UInt8 → Option (Nat × List UInt8)
  | [] => none
  | b :: rest =>
    if b.toNat % 4 = 0 then some (b.toNat / 4, rest)
    else if b.toNat % 4 = 1 then some (fromLeBytes (b :: rest.take 1) / 4, rest.drop 1)
    else if b.toNat % 4 = 2 then some (fromLeBytes (b :: rest.take 3) / 4, rest.drop 3)
    else some (fromLeBytes (rest.take 4), rest.drop 4)

/-- A shifted mode: the first byte carries the mode, the bytes after it the rest of the
    value. -/
theorem decodeCompact_shifted {k v : Nat} (hv : v < 256 ^ (k + 1)) (r : List UInt8) :
    ((v % 256).toUInt8).toNat % 4 = v % 4 ∧
    fromLeBytes ((v % 256).toUInt8 :: (leBytes k (v / 256) ++ r).take k) = v ∧
    (leBytes k (v / 256) ++ r).drop k = r := by
  refine ⟨by rw [toNat_mod_toUInt8]; omega, ?_, leBytes_append_drop r⟩
  rw [leBytes_append_take, ← leBytes, fromLeBytes_leBytes, Nat.mod_eq_of_lt hv]

theorem decodeCompact_compact {n : Nat} (hn : n < 2 ^ 32) (r : List UInt8) :
    decodeCompact (compact n ++ r) = some (n, r) := by
  unfold compact
  by_cases h6 : n < 2 ^ 6
  · -- one byte, mode `0b00`
    rw [if_pos h6]
    have hbyte : ((n * 4 % 256).toUInt8).toNat = n * 4 := by
      rw [toNat_mod_toUInt8]
      omega
    simp only [leBytes, List.cons_append, List.nil_append, decodeCompact, hbyte]
    rw [if_pos (by omega), Nat.mul_div_cancel n (by decide)]
  · by_cases h14 : n < 2 ^ 14
    · -- two bytes, mode `0b01`
      rw [if_neg h6, if_pos h14]
      obtain ⟨hmode, hval, hrest⟩ := decodeCompact_shifted (k := 1) (v := n * 4 + 1) (by omega) r
      rw [leBytes, List.cons_append, decodeCompact, if_neg (by omega), if_pos (by omega), hval,
        hrest]
      congr 2
      omega
    · by_cases h30 : n < 2 ^ 30
      · -- four bytes, mode `0b10`
        rw [if_neg h6, if_neg h14, if_pos h30]
        obtain ⟨hmode, hval, hrest⟩ :=
          decodeCompact_shifted (k := 3) (v := n * 4 + 2) (by omega) r
        rw [leBytes, List.cons_append, decodeCompact, if_neg (by omega), if_neg (by omega),
          if_pos (by omega), hval, hrest]
        congr 2
        omega
      · -- the marker `0b11`, then the four bytes of the value
        rw [if_neg h6, if_neg h14, if_neg h30, List.cons_append, decodeCompact]
        have hmarker : (3 : UInt8).toNat = 3 := rfl
        rw [hmarker, if_neg (by decide), if_neg (by decide), if_neg (by decide),
          leBytes_append_take, leBytes_append_drop, fromLeBytes_leBytes,
          Nat.mod_eq_of_lt (by omega)]

/-- **A compact length splits off the front of a message**, for the values of a `u32`. -/
theorem compact_append_inj {m n : Nat} {r r' : List UInt8} (hm : m < 2 ^ 32) (hn : n < 2 ^ 32)
    (hmsg : compact m ++ r = compact n ++ r') : m = n ∧ r = r' := by
  have hread : some (m, r) = some (n, r') := by
    rw [← decodeCompact_compact hm r, ← decodeCompact_compact hn r', hmsg]
  simpa only [Option.some.injEq, Prod.mk.injEq] using hread

/-! ## §3. `Option<T>` and `Vec<T>`. -/

variable {enc : α → List UInt8}

/-- `Option<T>::encode`: `0` for `None`; `1`, then the value, for `Some`. -/
def encodeOption (enc : α → List UInt8) : Option α → List UInt8
  | none => [0]
  | some a => 1 :: enc a

theorem encodeOption_selfDelimiting (h : SelfDelimiting enc) :
    SelfDelimiting (encodeOption enc) := by
  rintro (_ | a) (_ | b) r r' hmsg <;>
    simp only [encodeOption, List.cons_append, List.nil_append, List.cons.injEq] at hmsg
  · exact ⟨rfl, hmsg.2⟩
  · exact absurd hmsg.1 (by decide)
  · exact absurd hmsg.1 (by decide)
  · obtain ⟨rfl, hrest⟩ := h a b r r' hmsg.2
    exact ⟨rfl, hrest⟩

/-- `Vec<T>::encode`: the compact length, then the elements. -/
def encodeVec (enc : α → List UInt8) (xs : List α) : List UInt8 :=
  compact xs.length ++ xs.flatMap enc

/-- **A vector splits off the front of a message**, for vectors a `u32` can count. -/
theorem encodeVec_append_inj (h : SelfDelimiting enc) {xs ys : List α} {r r' : List UInt8}
    (hxs : xs.length < 2 ^ 32) (hys : ys.length < 2 ^ 32)
    (hmsg : encodeVec enc xs ++ r = encodeVec enc ys ++ r') : xs = ys ∧ r = r' := by
  unfold encodeVec at hmsg
  rw [List.append_assoc, List.append_assoc] at hmsg
  obtain ⟨hlen, hrest⟩ := compact_append_inj hxs hys hmsg
  exact h.flatMap_append_inj hlen hrest

end EncointerWorker.Lib
