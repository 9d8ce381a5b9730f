import Mathlib.Data.Nat.Digits.Lemmas
import EncointerWorker.Lib.Search

/-!
  EncointerWorker.Lib.Der — DER (X.690) as an ASN.1 writer such as yasna emits it: every value
  is an identifier octet, the length of its contents in the minimal form, and the contents.
  The primitive contents a certificate is made of are non-negative INTEGERs, OBJECT
  IDENTIFIERs, and BIT STRINGs of whole octets; constructed values concatenate the encodings
  of their components.

  Main results:
    * `lengthOctets_of_lt`, `lengthOctets_of_lt_256`, `lengthOctets_of_lt_65536`,
      `lengthOctets_of_ge_65536` — the four shapes of length octets a reader meets: the short
      form, and the long form with one, two, and three or more length octets.
    * `length_lengthOctets_le`, `length_unsignedContents_le` — below `256 ^ k`, at most
      `k + 1` octets of length or of INTEGER contents.
    * `noStart_header` — a pattern longer than a header's length octets, that does not start
      with its tag, does not begin inside the header.
-/

namespace EncointerWorker.Lib.Der

/-! ## §1. Length octets. -/

/-- The length octets of X.690 §8.1.3 in the minimal form DER requires: one octet below `128`,
    else `0x80 + k` and the `k` big-endian octets of the length. -/
def lengthOctets (n : Nat) : List UInt8 :=
  if n < 128 then [n.toUInt8]
  else (0x80 + (Nat.digits 256 n).length).toUInt8 :: (Nat.digits 256 n).reverse.map Nat.toUInt8

/-- A value: identifier octet and length octets (the header), then the contents. -/
def tlv (tag : UInt8) (contents : List UInt8) : List UInt8 :=
  (tag :: lengthOctets contents.length) ++ contents

theorem lengthOctets_of_lt {n : Nat} (h : n < 128) : lengthOctets n = [n.toUInt8] :=
  if_pos h

theorem lengthOctets_of_lt_256 {n : Nat} (h₁ : 128 ≤ n) (h₂ : n < 256) :
    lengthOctets n = [0x81, n.toUInt8] := by
  have hd : Nat.digits 256 n = [n] := Nat.digits_of_lt 256 n (by omega) h₂
  rw [lengthOctets, if_neg (by omega), hd]
  rfl

theorem lengthOctets_of_lt_65536 {n : Nat} (h₁ : 256 ≤ n) (h₂ : n < 65536) :
    lengthOctets n = [0x82, (n / 256).toUInt8, (n % 256).toUInt8] := by
  have hd : Nat.digits 256 n = [n % 256, n / 256] := by
    rw [Nat.digits_def' (by norm_num) (by omega),
      Nat.digits_of_lt 256 (n / 256) (by omega) (by omega)]
  rw [lengthOctets, if_neg (by omega), hd]
  rfl

/-- From `65536` on, the first octet announces three length octets or more. -/
theorem lengthOctets_of_ge_65536 {n : Nat} (h₁ : 65536 ≤ n) (h₂ : n < 2 ^ 64) :
    ∃ b d₁ d₂ ds, lengthOctets n = b :: d₁ :: d₂ :: ds ∧ 0x80 < b.toNat ∧ ds ≠ [] := by
  have hk₁ : 2 < (Nat.digits 256 n).length :=
    (Nat.lt_digits_length_iff (by norm_num) n).mpr (by omega)
  have hk₂ : (Nat.digits 256 n).length ≤ 8 :=
    (Nat.digits_length_le_iff (by norm_num) n).mpr (by omega)
  obtain ⟨d₁, d₂, d₃, ds, hds⟩ :
      ∃ d₁ d₂ d₃ ds, (Nat.digits 256 n).reverse = d₁ :: d₂ :: d₃ :: ds := by
    match h : (Nat.digits 256 n).reverse with
    | d₁ :: d₂ :: d₃ :: ds => exact ⟨d₁, d₂, d₃, ds, rfl⟩
    | [] | [_] | [_, _] =>
      have hlen := congrArg List.length h
      simp only [List.length_reverse, List.length_nil, List.length_cons] at hlen
      omega
  refine ⟨(0x80 + (Nat.digits 256 n).length).toUInt8, d₁.toUInt8, d₂.toUInt8,
    (d₃ :: ds).map Nat.toUInt8, ?_, ?_, by simp⟩
  · rw [lengthOctets, if_neg (by omega), hds]
    rfl
  · simp only [Nat.toUInt8_eq, UInt8.toNat_ofNat']
    omega

/-- Below `256 ^ k` there are at most `k + 1` length octets. -/
theorem length_lengthOctets_le {n k : Nat} (h : n < 256 ^ k) : (lengthOctets n).length ≤ k + 1 := by
  unfold lengthOctets
  split
  · simp
  · have hk := (Nat.digits_length_le_iff (by norm_num) n).mpr h
    simp only [List.length_cons, List.length_map, List.length_reverse]
    omega

theorem length_tlv (tag : UInt8) (contents : List UInt8) :
    (tlv tag contents).length = (lengthOctets contents.length).length + contents.length + 1 := by
  simp [tlv]

/-- The header of a value whose contents are shorter than `2 ^ 64` adds at most ten octets. -/
theorem length_tlv_le {contents : List UInt8} (h : contents.length < 2 ^ 64) (tag : UInt8) :
    (tlv tag contents).length ≤ contents.length + 10 := by
  have hoct := length_lengthOctets_le (k := 8) (by simpa using h)
  rw [length_tlv]
  omega

/-! ## §2. Contents of the primitive types. -/

/-- The contents of a non-negative INTEGER (X.690 §8.3): its big-endian octets, with a leading
    zero where the first has its top bit set, and one zero octet for zero. -/
def unsignedContents (n : Nat) : List UInt8 :=
  match (Nat.digits 256 n).reverse with
  | [] => [0]
  | d :: ds => (if 128 ≤ d then [0] else []) ++ (d :: ds).map Nat.toUInt8

theorem length_unsignedContents_le {n k : Nat} (h : n < 256 ^ k) :
    (unsignedContents n).length ≤ k + 1 := by
  have hk := (Nat.digits_length_le_iff (by norm_num) n).mpr h
  unfold unsignedContents
  split
  · simp
  · rename_i d ds hds
    have hlen : ds.length + 1 ≤ k := by
      simpa [hds] using (congrArg List.length hds).symm.le.trans (by simpa using hk)
    split <;> simp <;> omega

/-- One arc of an OBJECT IDENTIFIER in base 128, most significant group first, every group but
    the last with its top bit set (X.690 §8.19.2). -/
def arcOctets (arc : Nat) : List UInt8 :=
  ((Nat.digits 128 arc).tail.reverse.map (· + 128) ++ [(Nat.digits 128 arc).headD 0]).map
    Nat.toUInt8

/-- The contents of an OBJECT IDENTIFIER: the first two arcs packed as `40 * a + b`.  (An
    identifier has at least two arcs; the writer is never given fewer.) -/
def oidContents : List Nat → List UInt8
  | a :: b :: arcs => arcOctets (40 * a + b) ++ arcs.flatMap arcOctets
  | _ => []

/-! ## §3. The writer. -/

/-- `write_sequence`: the components one after the other. -/
def writeSequence (components : List (List UInt8)) : List UInt8 := tlv 0x30 components.flatten

/-- `write_set` with one component. -/
def writeSet (component : List UInt8) : List UInt8 := tlv 0x31 component

/-- `write_tagged(Tag::context(n), ..)`: explicit tagging, a constructed context-specific
    value around the inner encoding. -/
def writeTagged (n : Nat) (inner : List UInt8) : List UInt8 := tlv (0xA0 + n).toUInt8 inner

/-- `write_u8`, `write_i8` and `write_biguint` of a non-negative value. -/
def writeInteger (n : Nat) : List UInt8 := tlv 0x02 (unsignedContents n)

/-- `write_oid`. -/
def writeOid (arcs : List Nat) : List UInt8 := tlv 0x06 (oidContents arcs)

/-- `write_bitvec(&BitVec::from_bytes(bytes))`: whole octets, so no unused bits. -/
def writeBitvec (bytes : List UInt8) : List UInt8 := tlv 0x03 (0 :: bytes)

/-- `write_bytes`: an OCTET STRING. -/
def writeBytes (bytes : List UInt8) : List UInt8 := tlv 0x04 bytes

/-- `write_utf8_string`, given the string's UTF-8 bytes. -/
def writeUtf8String (bytes : List UInt8) : List UInt8 := tlv 0x0C bytes

/-- `write_utctime`, given the time's characters. -/
def writeUtctime (bytes : List UInt8) : List UInt8 := tlv 0x17 bytes

/-! ## §4. Where a pattern cannot begin. -/

/-- A pattern longer than a header's length octets, that does not start with the tag and whose
    tail does not hold the octet after the header, does not begin inside the header. -/
theorem noStart_header {pat ys : List UInt8} {tag : UInt8} {n : Nat}
    (htag : pat.head? ≠ some tag) (hlen : (lengthOctets n).length < pat.length)
    (hnext : ∀ t ∈ ys.head?, t ∉ pat.tail) : NoStart pat (tag :: lengthOctets n) ys := by
  rw [noStart_cons]
  refine ⟨fun hpre => htag ?_, noStart_of_next (fun h => absurd h.length_le (by omega)) hnext⟩
  obtain ⟨p, ps, rfl⟩ := List.exists_cons_of_length_pos (by omega : 0 < pat.length)
  rw [List.cons_prefix_cons] at hpre
  rw [hpre.1]
  rfl

end EncointerWorker.Lib.Der
