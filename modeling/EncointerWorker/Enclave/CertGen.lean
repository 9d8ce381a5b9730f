import EncointerWorker.Lib.Der
import EncointerWorker.Enclave.PercentDecode

/-!
  EncointerWorker.Enclave.CertGen — the certificate `gen_ecc_cert` (`enclave/src/cert.rs`)
  writes for mutual remote attestation, and what `verify_mra_cert` reads back out of it.

  The certificate is built with yasna's DER writer (`Lib.Der`): a TBS certificate with a
  fixed version, serial, issuer and subject, the validity period, the enclave's ephemeral
  prime256v1 key, and one V3 extension, a Netscape comment holding the attestation payload
  `report|signature|signing certificate`.  The clock, the time conversion and the ECDSA
  signature are parameters.

  `verify_mra_cert` does not parse this DER: it searches the bytes for the two OIDs and reads
  the length that follows each by hand, as one octet, or, above `0x80`, as the next two.  The
  key's length is always the one octet `0x42`.  The payload's is not: DER writes `0x81 n` for
  128 to 255 octets and three or more length octets from 65536 on.

  Main results:
    * `certPublicKey_genEccCert` — the key read back is `reverse(gx) ++ reverse(gy)`.
    * `derLength_agrees_iff` — the hand-written length reader returns DER's length and contents
      offset exactly below 128 and from 256 to 65535.
    * `mra_cert_fields_read_back` — the comment read back is the payload below 128 octets and
      from 256 to 65535; from 128 to 255 octets the read panics, and from 65536 on it returns
      a shorter slice.
-/

namespace EncointerWorker.Enclave

open EncointerWorker.Lib EncointerWorker.Lib.Der

/-! ## §1. The certificate. -/

/-- `sgx_ec256_public_t`: the two coordinates, 32 little-endian bytes each. -/
structure Ec256Public where
  gx : Bytes
  gy : Bytes
  gx_length : gx.length = 32
  gy_length : gy.length = 32

/-- `sgx_ec256_private_t`. -/
structure Ec256Private where
  r : Bytes
  r_length : r.length = 32

/-- `sgx_ec256_signature_t`: the two halves, eight little-endian `u32` words each. -/
structure Ec256Signature where
  x : List UInt32
  y : List UInt32
  x_length : x.length = 8
  y_length : y.length = 8

/-- A time as yasna's `UTCTime` writes it in DER, `YYMMDDHHMMSSZ`: two decimal digits a
    field, the year taken modulo 100. -/
structure UtcTime where
  year : Fin 100
  month : Fin 100
  day : Fin 100
  hour : Fin 100
  minute : Fin 100
  second : Fin 100
  deriving DecidableEq, Repr

/-- Two ASCII decimal digits. -/
def twoDigits (v : Fin 100) : Bytes :=
  [(0x30 + v.val / 10).toUInt8, (0x30 + v.val % 10).toUInt8]

/-- The characters of a `UTCTime` in DER. -/
def UtcTime.toBytes (t : UtcTime) : Bytes :=
  twoDigits t.year ++ twoDigits t.month ++ twoDigits t.day ++ twoDigits t.hour ++
    twoDigits t.minute ++ twoDigits t.second ++ [0x5A]

/-- The clock and the ECC library `gen_ecc_cert` calls. -/
structure CertGenEnv where
  /-- `SystemTime::now().duration_since(UNIX_EPOCH)`, in seconds. -/
  now : Nat
  /-- `UTCTime::from_datetime(&TzUtc.timestamp(secs, 0))`; `none` is a panic (a time outside
      the years 1950 to 2049 that a `UTCTime` holds). -/
  utcTime : Nat → Option UtcTime
  /-- `ecc_handle.ecdsa_sign_slice(data, prv_k)`; `none` is its `Err`, which `unwrap` panics on. -/
  ecdsaSignSlice : Bytes → Ec256Private → Option Ec256Signature

/-- `CERTEXPIRYDAYS` (`enclave/src/lib.rs`). -/
def CERTEXPIRYDAYS : Nat := 90

/-- `ISSUER`. -/
def ISSUER : String := "SubstraTEE"

/-- `SUBJECT`. -/
def SUBJECT : String := "SubstraTEE ephemeral"

/-- `pub_key_bytes`: `04`, then both coordinates big-endian. -/
def pubKeyBytes (pubK : Ec256Public) : Bytes := 4 :: (pubK.gx.reverse ++ pubK.gy.reverse)

/-- Signature Algorithm: ecdsa-with-SHA256. -/
def ecdsaWithSha256 : Bytes := writeSequence [writeOid [1, 2, 840, 10045, 4, 3, 2]]

/-- The issuer and the subject, `CN=name`. -/
def commonName (name : String) : Bytes :=
  writeSequence [writeSet (writeSequence [writeOid [2, 5, 4, 3], writeUtf8String name.toUTF8.toList])]

/-- Validity: Issuing/Expiring Time. -/
def validity (issue expire : UtcTime) : Bytes :=
  writeSequence [writeUtctime issue.toBytes, writeUtctime expire.toBytes]

/-- The public key algorithm (id-ecPublicKey, prime256v1) and the public key. -/
def subjectPublicKeyInfo (pubKeyBytes : Bytes) : Bytes :=
  writeSequence [writeSequence [writeOid [1, 2, 840, 10045, 2, 1], writeOid [1, 2, 840, 10045, 3, 1, 7]],
    writeBitvec pubKeyBytes]

/-- Certificate V3 Extension: the Netscape comment (OID 2.16.840.1.113730.1.13). -/
def netscapeComment (payload : Bytes) : Bytes :=
  writeTagged 3 (writeSequence [writeSequence [writeOid [2, 16, 840, 1, 113730, 1, 13], writeBytes payload]])

/-- The TBS certificate. -/
def tbsCertificate (issue expire : UtcTime) (pubKeyBytes payload : Bytes) : Bytes :=
  writeSequence [
    -- Certificate Version
    writeTagged 0 (writeInteger 2),
    -- Certificate Serial Number (unused but required)
    writeInteger 1,
    ecdsaWithSha256,
    commonName ISSUER,
    validity issue expire,
    commonName SUBJECT,
    subjectPublicKeyInfo pubKeyBytes,
    netscapeComment payload]

/-- `BigUint::from_slice`: base-`2 ^ 32` digits, least significant first. -/
def bigUintFromSlice (digits : List UInt32) : Nat :=
  digits.foldr (fun d acc => d.toNat + 2 ^ 32 * acc) 0

/-- `sig_der`: the two halves, their words reversed, as INTEGERs. -/
def sigDer (sig : Ec256Signature) : Bytes :=
  writeSequence [writeInteger (bigUintFromSlice sig.x.reverse),
    writeInteger (bigUintFromSlice sig.y.reverse)]

/-- `cert_der`: the TBS certificate, the signature algorithm, and the signature. -/
def certDer (tbs : Bytes) (sig : Ec256Signature) : Bytes :=
  writeSequence [tbs, ecdsaWithSha256, writeBitvec (sigDer sig)]

/-- `key_der`: the private key with its public key, wrapped with the key algorithm. -/
def keyDer (prvK : Ec256Private) (pubK : Ec256Public) : Bytes :=
  writeSequence [writeInteger 0,
    writeSequence [writeOid [1, 2, 840, 10045, 2, 1], writeOid [1, 2, 840, 10045, 3, 1, 7]],
    writeBytes (writeSequence [writeInteger 1, writeBytes prvK.r.reverse,
      writeTagged 1 (writeBitvec (pubKeyBytes pubK))])]

/-- `gen_ecc_cert(payload, prv_k, pub_k, ecc_handle)`, whose `Result` is always `Ok`:
    `(key_der, cert_der)`, or `none` for a panic. -/
def genEccCert (env : CertGenEnv) (payload : List Char) (prvK : Ec256Private)
    (pubK : Ec256Public) : Option (Bytes × Bytes) := do
  let issue ← env.utcTime env.now
  let expire ← env.utcTime (env.now + CERTEXPIRYDAYS * 86400)
  let tbs := tbsCertificate issue expire (pubKeyBytes pubK) (utf8Bytes payload)
  -- `&writer.buf[4..]`: past the outer tag and the three octets yasna reserves for the outer
  -- length, so the TBS certificate and the signature algorithm written after it
  let sig ← env.ecdsaSignSlice (tbs ++ ecdsaWithSha256) prvK
  pure (keyDer prvK pubK, certDer tbs sig)

theorem genEccCert_eq_some {env : CertGenEnv} {payload : List Char} {prvK : Ec256Private}
    {pubK : Ec256Public} {key cert : Bytes} (h : genEccCert env payload prvK pubK = some (key, cert)) :
    ∃ issue expire sig,
      cert = certDer (tbsCertificate issue expire (pubKeyBytes pubK) (utf8Bytes payload)) sig := by
  simp only [genEccCert, Option.bind_eq_bind, Option.bind_eq_some_iff, Option.pure_def,
    Option.some.injEq, Prod.mk.injEq] at h
  obtain ⟨issue, -, expire, -, sig, -, -, rfl⟩ := h
  exact ⟨issue, expire, sig, rfl⟩

/-! ## §2. The layout. -/

/-- The TBS certificate's components before the validity period. -/
def certFront : Bytes := writeTagged 0 (writeInteger 2) ++ writeInteger 1 ++ ecdsaWithSha256 ++ commonName ISSUER

/-- The subject public key info up to the prime256v1 OID. -/
def spkiHeader : Bytes := [0x30, 0x59, 0x30, 0x13] ++ writeOid [1, 2, 840, 10045, 2, 1]

/-- Everything before the prime256v1 OID: the two outer headers, the components before the
    key, and the key's header. -/
def certHead (T B : Nat) (issue expire : UtcTime) : Bytes :=
  (0x30 :: lengthOctets T) ++ (0x30 :: lengthOctets B) ++ certFront ++ validity issue expire ++
    (commonName SUBJECT ++ spkiHeader)

/-- The two OIDs the reader searches for, as the writer encodes their arcs.  The arcs go
    through `Nat.digits`, which is defined by well-founded recursion, so the fixed pieces of
    this section are evaluated by the kernel, each group once. -/
theorem writeOid_fixed :
    writeOid [1, 2, 840, 10045, 3, 1, 7] = PRIME256V1_OID ∧
      writeOid [2, 16, 840, 1, 113730, 1, 13] = NS_CMT_OID := by
  decide +kernel

theorem writeOid_prime256v1 : writeOid [1, 2, 840, 10045, 3, 1, 7] = PRIME256V1_OID :=
  writeOid_fixed.1

theorem writeOid_nsComment : writeOid [2, 16, 840, 1, 113730, 1, 13] = NS_CMT_OID :=
  writeOid_fixed.2

/-- The lengths of the fixed pieces before the key, and the first octet of the front (the
    names' bytes go through `String.toUTF8`, which is defined by well-founded recursion). -/
theorem length_fixedPieces :
    ecdsaWithSha256.length = 12 ∧ certFront.head? = some 0xA0 ∧ certFront.length = 43 ∧
      (commonName SUBJECT).length = 33 ∧ spkiHeader.length = 13 := by
  decide +kernel

@[simp] theorem length_twoDigits (v : Fin 100) : (twoDigits v).length = 2 := rfl

@[simp] theorem UtcTime.length_toBytes (t : UtcTime) : t.toBytes.length = 13 := by
  simp [UtcTime.toBytes]

/-- A digit is not the OID tag. -/
theorem UtcTime.six_not_mem_toBytes (t : UtcTime) : (0x06 : UInt8) ∉ t.toBytes := by
  have hdigit : ∀ v : Fin 100, (0x06 : UInt8) ∉ twoDigits v := by decide
  simp only [UtcTime.toBytes, List.mem_append, List.mem_singleton, not_or]
  exact ⟨⟨⟨⟨⟨⟨hdigit _, hdigit _⟩, hdigit _⟩, hdigit _⟩, hdigit _⟩, hdigit _⟩, by decide⟩

theorem validity_eq (issue expire : UtcTime) :
    validity issue expire = [0x30, 0x1E, 0x17, 0x0D] ++ issue.toBytes ++ ([0x17, 0x0D] ++ expire.toBytes) := by
  simp only [validity, writeSequence, writeUtctime, tlv, List.flatten_cons, List.flatten_nil,
    List.append_nil, List.length_append, List.length_cons, UtcTime.length_toBytes]
  rfl

theorem subjectPublicKeyInfo_eq (pubK : Ec256Public) :
    subjectPublicKeyInfo (pubKeyBytes pubK) =
      spkiHeader ++ PRIME256V1_OID ++ ([0x03, 0x42, 0x00, 0x04] ++ (pubK.gx.reverse ++ pubK.gy.reverse)) := by
  have hkey : (pubK.gx.reverse ++ pubK.gy.reverse).length = 64 := by
    simp [pubK.gx_length, pubK.gy_length]
  simp only [subjectPublicKeyInfo, writeSequence, writeBitvec, tlv, pubKeyBytes, writeOid_prime256v1,
    List.flatten_cons, List.flatten_nil, List.append_nil, List.length_append, List.length_cons, hkey]
  rfl

theorem netscapeComment_eq (payload : Bytes) :
    netscapeComment payload = tlv 0xA3 (tlv 0x30 (tlv 0x30 (NS_CMT_OID ++ writeBytes payload))) := by
  simp only [netscapeComment, writeTagged, writeSequence, writeOid_nsComment, List.flatten_cons,
    List.flatten_nil, List.append_nil]
  rfl

theorem tbsCertificate_eq (issue expire : UtcTime) (pubKeyBytes payload : Bytes) :
    tbsCertificate issue expire pubKeyBytes payload =
      tlv 0x30 (certFront ++ (validity issue expire ++ (commonName SUBJECT ++
        (subjectPublicKeyInfo pubKeyBytes ++ netscapeComment payload)))) := by
  simp only [tbsCertificate, writeSequence, certFront, List.flatten_cons, List.flatten_nil,
    List.append_nil, List.append_assoc]

theorem certDer_eq (tbs : Bytes) (sig : Ec256Signature) :
    certDer tbs sig = tlv 0x30 (tbs ++ (ecdsaWithSha256 ++ writeBitvec (sigDer sig))) := by
  simp only [certDer, writeSequence, List.flatten_cons, List.flatten_nil, List.append_nil]

/-! ### Lengths. -/

theorem bigUintFromSlice_lt (digits : List UInt32) :
    bigUintFromSlice digits < 2 ^ (32 * digits.length) := by
  induction digits with
  | nil => simp [bigUintFromSlice]
  | cons d ds ih =>
    have hd : d.toNat < 2 ^ 32 := UInt32.toNat_lt d
    have hmul : 2 ^ 32 * (bigUintFromSlice ds + 1) ≤ 2 ^ 32 * 2 ^ (32 * ds.length) :=
      Nat.mul_le_mul_left _ ih
    calc bigUintFromSlice (d :: ds) = d.toNat + 2 ^ 32 * bigUintFromSlice ds := rfl
      _ < 2 ^ 32 * (bigUintFromSlice ds + 1) := by rw [Nat.mul_add, Nat.mul_one]; omega
      _ ≤ 2 ^ 32 * 2 ^ (32 * ds.length) := hmul
      _ = 2 ^ (32 * (d :: ds).length) := by
        rw [← pow_add, List.length_cons]
        ring_nf

theorem sigDer_eq (sig : Ec256Signature) :
    sigDer sig = tlv 0x30 (writeInteger (bigUintFromSlice sig.x.reverse) ++
      writeInteger (bigUintFromSlice sig.y.reverse)) := by
  simp only [sigDer, writeSequence, List.flatten_cons, List.flatten_nil, List.append_nil]

/-- What follows the TBS certificate: the signature algorithm and the signature, at most 119
    octets (each half of the signature is below `2 ^ 256`). -/
theorem length_signature_le (sig : Ec256Signature) :
    (ecdsaWithSha256 ++ writeBitvec (sigDer sig)).length ≤ 119 := by
  have hhalf : ∀ words : List UInt32, words.length = 8 →
      (writeInteger (bigUintFromSlice words.reverse)).length ≤ 43 := by
    intro words hw
    have hlt : bigUintFromSlice words.reverse < 256 ^ 32 := by
      simpa [hw] using bigUintFromSlice_lt words.reverse
    have hcontents := length_unsignedContents_le hlt
    unfold writeInteger
    exact (length_tlv_le (by omega) _).trans (by omega)
  have hhalves : (writeInteger (bigUintFromSlice sig.x.reverse) ++
      writeInteger (bigUintFromSlice sig.y.reverse)).length ≤ 86 := by
    have hx := hhalf sig.x sig.x_length
    have hy := hhalf sig.y sig.y_length
    rw [List.length_append]
    omega
  have hsig : (sigDer sig).length ≤ 96 := by
    rw [sigDer_eq]
    exact (length_tlv_le (by omega) _).trans (by omega)
  have hbits : (writeBitvec (sigDer sig)).length ≤ 107 := by
    unfold writeBitvec
    exact (length_tlv_le (by rw [List.length_cons]; omega) _).trans (by rw [List.length_cons]; omega)
  have hfixed : ecdsaWithSha256.length = 12 := length_fixedPieces.1
  rw [List.length_append, hfixed]
  omega

/-- The three values around the comment's OID, each at most ten octets longer than its
    contents. -/
theorem length_netscapeComment_parts {payload : Bytes} (h : payload.length < 2 ^ 63) :
    (NS_CMT_OID ++ writeBytes payload).length ≤ payload.length + 21 ∧
      (tlv 0x30 (NS_CMT_OID ++ writeBytes payload)).length ≤ payload.length + 31 ∧
      (tlv 0x30 (tlv 0x30 (NS_CMT_OID ++ writeBytes payload))).length ≤ payload.length + 41 := by
  have hns : NS_CMT_OID.length = 11 := rfl
  have h₁ : (writeBytes payload).length ≤ payload.length + 10 := length_tlv_le (by omega) _
  have h₂ : (NS_CMT_OID ++ writeBytes payload).length ≤ payload.length + 21 := by
    rw [List.length_append]
    omega
  have h₃ : (tlv 0x30 (NS_CMT_OID ++ writeBytes payload)).length ≤ payload.length + 31 :=
    (length_tlv_le (by omega) _).trans (by omega)
  exact ⟨h₂, h₃, (length_tlv_le (by omega) _).trans (by omega)⟩

theorem length_netscapeComment_le {payload : Bytes} (h : payload.length < 2 ^ 63) :
    (netscapeComment payload).length ≤ payload.length + 51 := by
  obtain ⟨-, -, h₃⟩ := length_netscapeComment_parts h
  rw [netscapeComment_eq]
  exact (length_tlv_le (by omega) _).trans (by omega)

/-! ## §3. The two searches. -/

theorem position_append {pat xs ys : Bytes} (h : NoStart pat xs ys) :
    position pat (xs ++ ys) = (position pat ys).map (· + xs.length) := by
  induction xs with
  | nil => simp
  | cons x xs ih =>
    rw [noStart_cons] at h
    have hnot : pat.isPrefixOf (x :: (xs ++ ys)) = false :=
      Bool.eq_false_iff.mpr fun h' => h.1 (List.isPrefixOf_iff_prefix.mp h')
    simp only [List.cons_append, position, hnot, Bool.false_eq_true, if_false, ih h.2,
      Option.map_map, List.length_cons]
    rfl

theorem position_of_prefix {pat ys : Bytes} (hne : pat ≠ []) (h : pat <+: ys) :
    position pat ys = some 0 := by
  cases ys with
  | nil => exact absurd (List.prefix_nil.mp h) hne
  | cons y ys => simp [position, List.isPrefixOf_iff_prefix.mpr h]

/-- A pattern planted after a prefix in which it does not begin is found there. -/
theorem position_planted {pat xs zs : Bytes} (hne : pat ≠ []) (h : NoStart pat xs (pat ++ zs)) :
    position pat (xs ++ (pat ++ zs)) = some xs.length := by
  rw [position_append h, position_of_prefix hne (List.prefix_append pat zs)]
  simp

/-- What keeps a search pattern from beginning anywhere before the subject public key: it
    starts with the OID tag, length octets of lengths below `2 ^ 64` are too short to hold it,
    the octets after the two outer headers are not in its tail, and the fixed pieces clash
    with it. -/
structure HeadApart (pat : Bytes) : Prop where
  head : pat.head? = some 0x06
  long : 9 < pat.length
  seq_next : (0x30 : UInt8) ∉ pat.tail
  version_next : (0xA0 : UInt8) ∉ pat.tail
  front : Clash pat certFront
  validity_front : Clash pat [0x30, 0x1E, 0x17, 0x0D]
  validity_mid : Clash pat [0x17, 0x0D]
  subject : Clash pat (commonName SUBJECT ++ spkiHeader)

/-- Neither OID is found inside the front or the subject with the key's header. -/
theorem clash_fixedPieces :
    (Clash PRIME256V1_OID certFront ∧ Clash PRIME256V1_OID (commonName SUBJECT ++ spkiHeader)) ∧
      (Clash NS_CMT_OID certFront ∧ Clash NS_CMT_OID (commonName SUBJECT ++ spkiHeader)) := by
  decide +kernel

theorem headApart_prime256v1 : HeadApart PRIME256V1_OID where
  head := rfl
  long := by decide
  seq_next := by decide
  version_next := by decide
  front := clash_fixedPieces.1.1
  validity_front := by decide
  validity_mid := by decide
  subject := clash_fixedPieces.1.2

theorem headApart_nsCmt : HeadApart NS_CMT_OID where
  head := rfl
  long := by decide
  seq_next := by decide
  version_next := by decide
  front := clash_fixedPieces.2.1
  validity_front := by decide
  validity_mid := by decide
  subject := clash_fixedPieces.2.2

theorem HeadApart.length_lengthOctets_lt {pat : Bytes} (hp : HeadApart pat) {m : Nat}
    (hm : m < 2 ^ 64) : (lengthOctets m).length < pat.length :=
  lt_of_le_of_lt (length_lengthOctets_le (k := 8) (by simpa using hm)) (by have := hp.long; omega)

theorem certFront_head : certFront.head? = some 0xA0 := length_fixedPieces.2.1

/-- Neither OID begins in the certificate before the key's OID. -/
theorem noStart_certHead {pat : Bytes} (hp : HeadApart pat) {T B : Nat} (hT : T < 2 ^ 64)
    (hB : B < 2 ^ 64) (issue expire : UtcTime) (ys : Bytes) :
    NoStart pat (certHead T B issue expire) ys := by
  obtain ⟨ps, rfl⟩ : ∃ ps, pat = 0x06 :: ps := by
    match pat, hp.head with
    | p :: ps, h => exact ⟨ps, by simpa using h⟩
  simp only [certHead, validity_eq, noStart_append, List.append_assoc]
  -- the two outer headers, the front, the validity period piece by piece, the subject
  have hseq : (0x06 :: ps).head? ≠ some 0x30 := by simp only [List.head?_cons]; decide
  refine ⟨noStart_header hseq (hp.length_lengthOctets_lt hT) (by simpa using hp.seq_next),
    noStart_header hseq (hp.length_lengthOctets_lt hB) ?_,
    noStart_of_clash hp.front _, noStart_of_clash hp.validity_front _,
    noStart_of_not_mem issue.six_not_mem_toBytes, noStart_of_clash hp.validity_mid _,
    noStart_of_not_mem expire.six_not_mem_toBytes, noStart_append.mp (noStart_of_clash hp.subject _)⟩
  simpa [List.head?_append, certFront_head] using hp.version_next

theorem length_certFront : certFront.length = 43 := length_fixedPieces.2.2.1

theorem length_commonName_subject : (commonName SUBJECT).length = 33 :=
  length_fixedPieces.2.2.2.1

theorem length_spkiHeader : spkiHeader.length = 13 := length_fixedPieces.2.2.2.2

/-- The certificate, cut before the key's OID: the head, and the lengths of the two outer
    values below `2 ^ 64`. -/
theorem certDer_eq_certHead {payload : Bytes} (hn : payload.length < 2 ^ 63)
    (issue expire : UtcTime) (pubK : Ec256Public) (sig : Ec256Signature) :
    ∃ T B, T < 2 ^ 64 ∧ B < 2 ^ 64 ∧
      certDer (tbsCertificate issue expire (pubKeyBytes pubK) payload) sig =
        certHead T B issue expire ++ (PRIME256V1_OID ++ ([0x03, 0x42, 0x00, 0x04] ++
          ((pubK.gx.reverse ++ pubK.gy.reverse) ++
            (netscapeComment payload ++ (ecdsaWithSha256 ++ writeBitvec (sigDer sig)))))) := by
  have hext := length_netscapeComment_le hn
  have hsig := length_signature_le sig
  have hkey : (pubK.gx.reverse ++ pubK.gy.reverse).length = 64 := by
    simp [pubK.gx_length, pubK.gy_length]
  have hB : (certFront ++ (validity issue expire ++ (commonName SUBJECT ++
      (subjectPublicKeyInfo (pubKeyBytes pubK) ++ netscapeComment payload)))).length ≤
        payload.length + 250 := by
    simp only [List.length_append, length_certFront, validity_eq, subjectPublicKeyInfo_eq,
      length_commonName_subject, length_spkiHeader, UtcTime.length_toBytes, hkey]
    have : PRIME256V1_OID.length = 10 := rfl
    simp only [List.length_cons, List.length_nil]
    omega
  have htbs := length_tlv_le (lt_of_le_of_lt hB (by omega)) 0x30
  rw [← tbsCertificate_eq] at htbs
  refine ⟨(tbsCertificate issue expire (pubKeyBytes pubK) payload ++
      (ecdsaWithSha256 ++ writeBitvec (sigDer sig))).length,
    (certFront ++ (validity issue expire ++ (commonName SUBJECT ++
      (subjectPublicKeyInfo (pubKeyBytes pubK) ++ netscapeComment payload)))).length,
    ?_, lt_of_le_of_lt hB (by omega), ?_⟩
  · rw [List.length_append]
    omega
  · rw [certDer_eq, tbsCertificate_eq]
    simp only [tlv, certHead, subjectPublicKeyInfo_eq, List.append_assoc]

/-- The certificate, cut before the comment's OID: a prefix in which that OID does not begin,
    when the key does not contain it. -/
theorem certDer_eq_nsPrefix {payload : Bytes} (hn : payload.length < 2 ^ 63)
    (issue expire : UtcTime) {pubK : Ec256Public}
    (hkey : ¬ NS_CMT_OID <:+: pubK.gx.reverse ++ pubK.gy.reverse) (sig : Ec256Signature) :
    ∃ pre, NoStart NS_CMT_OID pre
        (NS_CMT_OID ++ (writeBytes payload ++ (ecdsaWithSha256 ++ writeBitvec (sigDer sig)))) ∧
      certDer (tbsCertificate issue expire (pubKeyBytes pubK) payload) sig =
        pre ++ (NS_CMT_OID ++ (writeBytes payload ++ (ecdsaWithSha256 ++ writeBitvec (sigDer sig)))) := by
  obtain ⟨T, B, hT, hB, hcert⟩ := certDer_eq_certHead hn issue expire pubK sig
  obtain ⟨h₁, h₂, h₃⟩ := length_netscapeComment_parts hn
  have hlen : ∀ {m : Nat}, m < 2 ^ 64 → (lengthOctets m).length < NS_CMT_OID.length :=
    headApart_nsCmt.length_lengthOctets_lt
  have hsix : (0x06 :: NS_CMT_OID.tail).head? ≠ some 0x30 ∧ (0x06 :: NS_CMT_OID.tail).head? ≠ some 0xA3 := by
    decide
  have hA3 : (0xA3 : UInt8) ∉ NS_CMT_OID.tail := by decide
  have h30 : (0x30 : UInt8) ∉ NS_CMT_OID.tail := by decide
  have h06 : (0x06 : UInt8) ∉ NS_CMT_OID.tail := by decide
  refine ⟨certHead T B issue expire ++ (PRIME256V1_OID ++ [0x03, 0x42, 0x00, 0x04]) ++
      (pubK.gx.reverse ++ pubK.gy.reverse) ++
      (0xA3 :: lengthOctets (tlv 0x30 (tlv 0x30 (NS_CMT_OID ++ writeBytes payload))).length) ++
      (0x30 :: lengthOctets (tlv 0x30 (NS_CMT_OID ++ writeBytes payload)).length) ++
      (0x30 :: lengthOctets (NS_CMT_OID ++ writeBytes payload).length), ?_, ?_⟩
  · -- the head, the key's OID and header, the key, the extension's three headers
    refine noStart_append.mpr ⟨noStart_append.mpr ⟨noStart_append.mpr ⟨noStart_append.mpr
      ⟨noStart_append.mpr ⟨noStart_certHead headApart_nsCmt hT hB issue expire _,
        noStart_of_clash (by decide) _⟩, noStart_of_next hkey (by simpa using hA3)⟩,
        noStart_header hsix.2 (hlen (by omega)) (by simpa using h30)⟩,
        noStart_header hsix.1 (hlen (by omega)) (by simpa using h30)⟩,
        noStart_header hsix.1 (hlen (by omega)) fun t ht => by
          injection ht with ht
          subst ht
          exact h06⟩
  · rw [hcert, netscapeComment_eq]
    simp only [tlv, List.append_assoc]

/-! ## §4. Reading a length back. -/

section Read

variable {certDer rest : Bytes} {offset m : Nat}

theorem certPanic_bind {α β : Type} (f : α → CertM β) : (certPanic >>= f) = certPanic := rfl

theorem certM_pure_inj {α : Type} {a b : α} (h : (pure a : CertM α) = pure b) : a = b := by
  have h' : (some (Except.ok a) : Option (Except SgxStatus α)) = some (.ok b) := h
  simpa using h'

theorem getElem?_of_drop {b : UInt8} {bs : Bytes} (h : certDer.drop offset = b :: bs) (i : Nat) :
    certDer[offset + i]? = (b :: bs)[i]? := by
  rw [← List.getElem?_drop, h]

/-- `derLength` reads one octet, and above `0x80` the two after it. -/
theorem derLength_eq {b : UInt8} {bs : Bytes} (h : certDer.drop offset = b :: bs) :
    derLength certDer offset =
      if b.toNat > 0x80 then
        match bs with
        | hi :: lo :: _ => pure (hi.toNat * 0x100 + lo.toNat, offset + 2 + 1)
        | _ => certPanic
      else pure (b.toNat, offset + 1) := by
  have h₀ : certDer[offset]? = some b := getElem?_of_drop h 0
  have h₁ := getElem?_of_drop h 1
  have h₂ := getElem?_of_drop h 2
  unfold derLength
  simp only [h₀, expectSome, pure_bind]
  by_cases hb : b.toNat > 0x80
  · rw [if_pos hb, if_pos hb]
    -- the two octets after the first, or a panic where the certificate ends
    rcases bs with _ | ⟨hi, _ | ⟨lo, bs⟩⟩
    · simp only [List.getElem?_cons_succ, List.getElem?_nil] at h₁
      simp only [h₁, certPanic_bind]
    · simp only [List.getElem?_cons_succ, List.getElem?_cons_zero, List.getElem?_nil] at h₁ h₂
      simp only [h₁, h₂, pure_bind, certPanic_bind]
    · simp only [List.getElem?_cons_succ, List.getElem?_cons_zero] at h₁ h₂
      simp only [h₁, h₂, pure_bind]
  · rw [if_neg hb, if_neg hb]

/-- The short form is read right. -/
theorem derLength_of_lt (h : certDer.drop offset = lengthOctets m ++ rest) (hm : m < 128) :
    derLength certDer offset = pure (m, offset + 1) := by
  rw [lengthOctets_of_lt hm, List.singleton_append] at h
  have hv : m.toUInt8.toNat = m := by simp; omega
  rw [derLength_eq h, hv, if_neg (by omega)]

/-- Two length octets are read right. -/
theorem derLength_of_lt_65536 (h : certDer.drop offset = lengthOctets m ++ rest) (h₁ : 256 ≤ m)
    (h₂ : m < 65536) : derLength certDer offset = pure (m, offset + 3) := by
  rw [lengthOctets_of_lt_65536 h₁ h₂, List.cons_append, List.cons_append, List.cons_append,
    List.nil_append] at h
  have hhi : (m / 256).toUInt8.toNat = m / 256 := by simp; omega
  have hlo : (m % 256).toUInt8.toNat = m % 256 := by simp
  rw [derLength_eq h, if_pos (by decide)]
  simp only [hhi, hlo]
  congr 2
  omega

/-- One length octet, `0x81 m`, is read as two: `m` and the first contents octet. -/
theorem derLength_of_lt_256 {b : UInt8} (h : certDer.drop offset = lengthOctets m ++ b :: rest)
    (h₁ : 128 ≤ m) (h₂ : m < 256) :
    derLength certDer offset = pure (m * 256 + b.toNat, offset + 3) := by
  rw [lengthOctets_of_lt_256 h₁ h₂, List.cons_append, List.cons_append, List.nil_append] at h
  have hv : m.toUInt8.toNat = m := by simp; omega
  rw [derLength_eq h, if_pos (by decide)]
  simp only [hv]

/-- Three length octets or more are read as two, the first two after the count. -/
theorem derLength_of_ge_65536 (h : certDer.drop offset = lengthOctets m ++ rest)
    (h₁ : 65536 ≤ m) (h₂ : m < 2 ^ 64) :
    ∃ len, len < 65536 ∧ derLength certDer offset = pure (len, offset + 3) := by
  obtain ⟨b, d₁, d₂, ds, hoct, hb, -⟩ := lengthOctets_of_ge_65536 h₁ h₂
  rw [hoct, List.cons_append, List.cons_append, List.cons_append] at h
  refine ⟨d₁.toNat * 0x100 + d₂.toNat, ?_, ?_⟩
  · have hd₁ := d₁.toNat_lt
    have hd₂ := d₂.toNat_lt
    omega
  · rw [derLength_eq h, if_pos hb]

/-- **The hand-written reader agrees with DER** — it returns the length and the offset of the
    contents — exactly for lengths below 128 and from 256 to 65535. -/
theorem derLength_agrees_iff (h : certDer.drop offset = lengthOctets m ++ rest) (hm : m < 2 ^ 64) :
    derLength certDer offset = pure (m, offset + (lengthOctets m).length) ↔
      m < 128 ∨ 256 ≤ m ∧ m < 65536 := by
  constructor
  · intro hread
    by_contra hout
    rcases (by omega : 128 ≤ m ∧ m < 256 ∨ 65536 ≤ m) with ⟨h₁, h₂⟩ | h₁
    · -- `0x81 m`: a read that succeeds resumes one octet too far
      rw [lengthOctets_of_lt_256 h₁ h₂] at hread
      cases rest with
      | nil =>
        rw [lengthOctets_of_lt_256 h₁ h₂, List.cons_append, List.cons_append, List.nil_append] at h
        rw [derLength_eq h, if_pos (by decide)] at hread
        cases hread
      | cons b rest =>
        rw [derLength_of_lt_256 h h₁ h₂] at hread
        have := certM_pure_inj hread
        simp at this
    · -- three length octets or more: a length below 65536
      obtain ⟨len, hlen, hread'⟩ := derLength_of_ge_65536 h h₁ hm
      rw [hread'] at hread
      have := certM_pure_inj hread
      simp only [Prod.mk.injEq] at this
      omega
  · rintro (hm' | ⟨h₁, h₂⟩)
    · rw [derLength_of_lt h hm', lengthOctets_of_lt hm']
      rfl
    · rw [derLength_of_lt_65536 h h₁ h₂, lengthOctets_of_lt_65536 h₁ h₂]
      rfl

end Read

/-! ## §5. What `verify_mra_cert` reads back. -/

theorem slice_of_drop {data xs rest : Bytes} {a : Nat} (ha : a ≤ data.length)
    (h : data.drop a = xs ++ rest) : slice data a (a + xs.length) = some xs := by
  have hlen : a + xs.length ≤ data.length := by
    have hdrop := congrArg List.length h
    simp only [List.length_drop, List.length_append] at hdrop
    omega
  rw [slice, if_pos ⟨Nat.le_add_right a _, hlen⟩, h, Nat.add_sub_cancel_left, List.take_left]

theorem slice_of_le {data : Bytes} {a len : Nat} (h : a + len ≤ data.length) :
    ∃ bs, slice data a (a + len) = some bs ∧ bs.length = len := by
  refine ⟨(data.drop a).take len, ?_, ?_⟩
  · rw [slice, if_pos ⟨Nat.le_add_right a _, h⟩, Nat.add_sub_cancel_left]
  · simp only [List.length_take, List.length_drop]
    omega

theorem slice_of_lt {data : Bytes} {a b : Nat} (h : data.length < b) : slice data a b = none :=
  if_neg fun hab => absurd hab.2 (by omega)

/-- The key: its OID, the BIT STRING's tag and length octet `0x42`, and, past the unused-bits
    octet and the `04` of an uncompressed point, both coordinates. -/
theorem certPublicKey_certDer {payload : Bytes} (hn : payload.length < 2 ^ 63)
    (issue expire : UtcTime) (pubK : Ec256Public) (sig : Ec256Signature) :
    certPublicKey (certDer (tbsCertificate issue expire (pubKeyBytes pubK) payload) sig) =
      pure (pubK.gx.reverse ++ pubK.gy.reverse) := by
  obtain ⟨T, B, hT, hB, hcert⟩ := certDer_eq_certHead hn issue expire pubK sig
  have hstart := noStart_certHead headApart_prime256v1 hT hB issue expire
    (PRIME256V1_OID ++ ([0x03, 0x42, 0x00, 0x04] ++ ((pubK.gx.reverse ++ pubK.gy.reverse) ++
      (netscapeComment payload ++ (ecdsaWithSha256 ++ writeBitvec (sigDer sig))))))
  have hkey : (pubK.gx.reverse ++ pubK.gy.reverse).length = 64 := by
    simp [pubK.gx_length, pubK.gy_length]
  rw [hcert]
  generalize certHead T B issue expire = head at hstart ⊢
  generalize pubK.gx.reverse ++ pubK.gy.reverse = key at hkey hstart ⊢
  generalize netscapeComment payload ++ (ecdsaWithSha256 ++ writeBitvec (sigDer sig)) = rest at hstart ⊢
  have hpos := position_planted (by decide) hstart
  have hdrop : (head ++ (PRIME256V1_OID ++ ([0x03, 0x42, 0x00, 0x04] ++ (key ++ rest)))).drop
      (head.length + 11) = lengthOctets 66 ++ ([0x00, 0x04] ++ (key ++ rest)) := by
    rw [List.drop_length_add_append, lengthOctets_of_lt (by decide)]
    rfl
  have hkeydrop : (head ++ (PRIME256V1_OID ++ ([0x03, 0x42, 0x00, 0x04] ++ (key ++ rest)))).drop
      (head.length + 11 + 1 + 2) = key ++ rest := by
    rw [Nat.add_assoc, Nat.add_assoc, List.drop_length_add_append]
    rfl
  unfold certPublicKey
  simp only [hpos, sgxError, pure_bind, derLength_of_lt hdrop (by decide)]
  rw [show head.length + 11 + 1 + 66 = head.length + 11 + 1 + 2 + key.length by omega,
    slice_of_drop (by simp; omega) hkeydrop]
  rfl

theorem drop_commentLength (pre payload post : Bytes) :
    (pre ++ (NS_CMT_OID ++ (writeBytes payload ++ post))).drop (pre.length + 12) =
      lengthOctets payload.length ++ (payload ++ post) := by
  rw [List.drop_length_add_append]
  simp only [writeBytes, tlv, List.append_assoc]
  rfl

theorem length_planted (pre payload post : Bytes) :
    (pre ++ (NS_CMT_OID ++ (writeBytes payload ++ post))).length =
      pre.length + 12 + (lengthOctets payload.length).length + payload.length + post.length := by
  simp only [writeBytes, tlv, List.length_append, List.length_cons]
  have hns : NS_CMT_OID.length = 11 := rfl
  omega

section Comment

variable {pre post payload : Bytes}

/-- Where the comment's OID is found, its contents are read from the length octets after its
    OCTET STRING tag. -/
theorem certNetscapeComment_planted
    (hpre : NoStart NS_CMT_OID pre (NS_CMT_OID ++ (writeBytes payload ++ post))) :
    certNetscapeComment (pre ++ (NS_CMT_OID ++ (writeBytes payload ++ post))) =
      derLength (pre ++ (NS_CMT_OID ++ (writeBytes payload ++ post))) (pre.length + 12) >>=
        fun r => expectSome (slice (pre ++ (NS_CMT_OID ++ (writeBytes payload ++ post))) r.2 (r.2 + r.1)) := by
  unfold certNetscapeComment
  simp only [position_planted (by decide) hpre, sgxError, pure_bind]

/-- Where the reader agrees with DER, the comment read is the payload. -/
theorem certNetscapeComment_of_agrees
    (hpre : NoStart NS_CMT_OID pre (NS_CMT_OID ++ (writeBytes payload ++ post)))
    (hm : payload.length < 128 ∨ 256 ≤ payload.length ∧ payload.length < 65536) :
    certNetscapeComment (pre ++ (NS_CMT_OID ++ (writeBytes payload ++ post))) = pure payload := by
  have hlen : payload.length < 2 ^ 64 := by omega
  have hread := (derLength_agrees_iff (drop_commentLength pre payload post) hlen).mpr hm
  have hcontents : (pre ++ (NS_CMT_OID ++ (writeBytes payload ++ post))).drop
      (pre.length + 12 + (lengthOctets payload.length).length) = payload ++ post := by
    rw [← List.drop_drop, drop_commentLength, List.drop_left]
  rw [certNetscapeComment_planted hpre, hread, pure_bind]
  simp only
  rw [slice_of_drop (by rw [length_planted]; omega) hcontents]
  rfl

/-- With one length octet, `0x81 n`, the read length is at least `128 * 256`, past the end of
    the certificate: the slice panics. -/
theorem certNetscapeComment_of_one_octet
    (hpre : NoStart NS_CMT_OID pre (NS_CMT_OID ++ (writeBytes payload ++ post)))
    (h₁ : 128 ≤ payload.length) (h₂ : payload.length < 256) (hpost : post.length ≤ 119) :
    certNetscapeComment (pre ++ (NS_CMT_OID ++ (writeBytes payload ++ post))) = certPanic := by
  -- the first payload octet is read as the length's low octet
  obtain ⟨b, bs, hb⟩ := List.exists_cons_of_length_pos (by omega : 0 < payload.length)
  have hsplit : payload ++ post = b :: (bs ++ post) := by rw [hb, List.cons_append]
  have hdrop := drop_commentLength pre payload post
  rw [hsplit] at hdrop
  have hread := derLength_of_lt_256 hdrop h₁ h₂
  have hcert := length_planted pre payload post
  rw [lengthOctets_of_lt_256 h₁ h₂] at hcert
  rw [certNetscapeComment_planted hpre, hread, pure_bind]
  simp only
  rw [slice_of_lt (by simp only [List.length_cons, List.length_nil] at hcert; omega)]
  rfl

/-- With three length octets or more, the read length is below 65536 and the slice a shorter
    run of the certificate. -/
theorem certNetscapeComment_of_long
    (hpre : NoStart NS_CMT_OID pre (NS_CMT_OID ++ (writeBytes payload ++ post)))
    (h₁ : 65536 ≤ payload.length) (h₂ : payload.length < 2 ^ 64) :
    ∃ bs, certNetscapeComment (pre ++ (NS_CMT_OID ++ (writeBytes payload ++ post))) = pure bs ∧
      bs.length < payload.length := by
  obtain ⟨len, hlen, hread⟩ := derLength_of_ge_65536 (drop_commentLength pre payload post) h₁ h₂
  obtain ⟨b, d₁, d₂, ds, hoct, -, hds⟩ := lengthOctets_of_ge_65536 h₁ h₂
  have hcert := length_planted pre payload post
  have hoctlen : 4 ≤ (lengthOctets payload.length).length := by
    rw [hoct]
    obtain ⟨d, ds', rfl⟩ := List.exists_cons_of_ne_nil hds
    simp
  have hfits : pre.length + 12 + 2 + 1 + len ≤
      (pre ++ (NS_CMT_OID ++ (writeBytes payload ++ post))).length := by
    omega
  obtain ⟨bs, hslice, hbs⟩ := slice_of_le hfits
  refine ⟨bs, ?_, by omega⟩
  rw [certNetscapeComment_planted hpre, hread, pure_bind]
  simp only
  rw [show pre.length + 12 + 3 = pre.length + 12 + 2 + 1 by rfl, hslice]
  rfl

end Comment

/-! ## §6. The certificate of `gen_ecc_cert`. -/

section Generated

variable {env : CertGenEnv} {payload : List Char} {prvK : Ec256Private} {pubK : Ec256Public}
  {key cert : Bytes}

theorem certPublicKey_genEccCert (hgen : genEccCert env payload prvK pubK = some (key, cert))
    (hn : (utf8Bytes payload).length < 2 ^ 63) :
    certPublicKey cert = pure (pubK.gx.reverse ++ pubK.gy.reverse) := by
  obtain ⟨issue, expire, sig, rfl⟩ := genEccCert_eq_some hgen
  exact certPublicKey_certDer hn issue expire pubK sig

/-- The generated certificate around the comment: a prefix the comment's OID does not begin in,
    the OID, the payload's OCTET STRING, and at most 119 octets of signature. -/
theorem genEccCert_comment_planted (hgen : genEccCert env payload prvK pubK = some (key, cert))
    (hkey : ¬ NS_CMT_OID <:+: pubK.gx.reverse ++ pubK.gy.reverse)
    (hn : (utf8Bytes payload).length < 2 ^ 63) :
    ∃ pre post, NoStart NS_CMT_OID pre (NS_CMT_OID ++ (writeBytes (utf8Bytes payload) ++ post)) ∧
      cert = pre ++ (NS_CMT_OID ++ (writeBytes (utf8Bytes payload) ++ post)) ∧ post.length ≤ 119 := by
  obtain ⟨issue, expire, sig, rfl⟩ := genEccCert_eq_some hgen
  obtain ⟨pre, hpre, hcert⟩ := certDer_eq_nsPrefix hn issue expire hkey sig
  exact ⟨pre, _, hpre, hcert, length_signature_le sig⟩

/-- **What `verify_mra_cert` reads back from `gen_ecc_cert`'s certificate.**  The key is
    `reverse(gx) ++ reverse(gy)`.  The comment is the payload below 128 octets and from 256 to
    65535 octets; from 128 to 255 octets the read panics, and from 65536 on it is a slice
    shorter than the payload. -/
theorem mra_cert_fields_read_back (hgen : genEccCert env payload prvK pubK = some (key, cert))
    (hkey : ¬ NS_CMT_OID <:+: pubK.gx.reverse ++ pubK.gy.reverse)
    (hn : (utf8Bytes payload).length < 2 ^ 63) :
    certPublicKey cert = pure (pubK.gx.reverse ++ pubK.gy.reverse) ∧
      ((utf8Bytes payload).length < 128 ∨
          256 ≤ (utf8Bytes payload).length ∧ (utf8Bytes payload).length < 65536 →
        certNetscapeComment cert = pure (utf8Bytes payload)) ∧
      (128 ≤ (utf8Bytes payload).length → (utf8Bytes payload).length < 256 →
        certNetscapeComment cert = certPanic) ∧
      (65536 ≤ (utf8Bytes payload).length →
        ∃ bs, certNetscapeComment cert = pure bs ∧ bs.length < (utf8Bytes payload).length) := by
  obtain ⟨pre, post, hpre, hcert, hpost⟩ := genEccCert_comment_planted hgen hkey hn
  refine ⟨certPublicKey_genEccCert hgen hn, fun hm => ?_, fun h₁ h₂ => ?_, fun h₁ => ?_⟩
  · rw [hcert]
    exact certNetscapeComment_of_agrees hpre hm
  · rw [hcert]
    exact certNetscapeComment_of_one_octet hpre h₁ h₂ hpost
  · rw [hcert]
    exact certNetscapeComment_of_long hpre h₁ (by omega)

end Generated

/-! ## §7. A payload of 128 octets. -/

/-- 1 January 2025, midnight. -/
def newYear2025 : UtcTime := ⟨25, 1, 1, 0, 0, 0⟩

/-- The zero signature. -/
def zeroSignature : Ec256Signature := ⟨List.replicate 8 0, List.replicate 8 0, rfl, rfl⟩

/-- A clock that reads 1 January 2025, and a signer that returns the zero signature. -/
def fixedCertGenEnv : CertGenEnv where
  now := 1735689600
  utcTime _ := some newYear2025
  ecdsaSignSlice _ _ := some zeroSignature

def samplePublic : Ec256Public := ⟨List.replicate 32 1, List.replicate 32 2, rfl, rfl⟩

def samplePrivate : Ec256Private := ⟨List.replicate 32 3, rfl⟩

/-- 128 ASCII characters. -/
def payload128 : List Char := List.replicate 128 'a'

/-- The certificate `gen_ecc_cert` writes for them. -/
def cert128 : Bytes :=
  certDer (tbsCertificate newYear2025 newYear2025 (pubKeyBytes samplePublic) (utf8Bytes payload128))
    zeroSignature

theorem genEccCert_payload128 :
    genEccCert fixedCertGenEnv payload128 samplePrivate samplePublic =
      some (keyDer samplePrivate samplePublic, cert128) := rfl

theorem length_payload128 : (utf8Bytes payload128).length = 128 := by
  rw [length_utf8Bytes_of_ascii (fun c hc => by rw [List.eq_of_mem_replicate hc]; decide)]
  exact List.length_replicate

/-- The comment of a certificate with a 128-octet payload cannot be read back. -/
theorem comment_of_128_octets_panics :
    genEccCert fixedCertGenEnv payload128 samplePrivate samplePublic =
        some (keyDer samplePrivate samplePublic, cert128) ∧
      ¬ NS_CMT_OID <:+: samplePublic.gx.reverse ++ samplePublic.gy.reverse ∧
      (utf8Bytes payload128).length < 2 ^ 63 ∧
      certNetscapeComment cert128 = certPanic := by
  have hkey : ¬ NS_CMT_OID <:+: samplePublic.gx.reverse ++ samplePublic.gy.reverse := by decide
  have hn : (utf8Bytes payload128).length < 2 ^ 63 := by rw [length_payload128]; norm_num
  refine ⟨genEccCert_payload128, hkey, hn, ?_⟩
  exact (mra_cert_fields_read_back genEccCert_payload128 hkey hn).2.2.1
    (by rw [length_payload128]) (by rw [length_payload128]; norm_num)

end EncointerWorker.Enclave
