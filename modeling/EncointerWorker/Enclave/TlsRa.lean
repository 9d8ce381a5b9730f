import EncointerWorker.Lib.Scale
import EncointerWorker.Enclave.Cert

/-!
  EncointerWorker.Enclave.TlsRa — mutual remote attestation over TLS and the provisioning of
  the shielding and state keys (`enclave/src/tls_ra.rs`).

  Both ends of the MU-RA channel check the peer's certificate with `verify_mra_cert`, through
  `ClientAuth::verify_client_cert` and `ServerAuth::verify_server_cert`; the peer is not
  authenticated yet, so the certificate list is whatever it sent.  The server then writes the
  shielding key (as JSON bytes, behind an 8-byte little-endian length) and the AES key and IV
  with `send_files`; the client reads them back with four `read`s in `receive_files`, each
  into a fresh zeroed buffer, and seals what the buffers hold.  The counts `read` returns are
  dropped.

  The channel is reliable and ordered; each `read` returns as many of the bytes left as the
  channel chooses, at most the buffer's size (`chunk i` for the `i`-th read).

  Main results:
    * `peer_cert_check_panics` — an empty certificate list, or a certificate that ends at the
      prime256v1 OID, panics the verifier instead of being rejected.
    * `receiveFiles_sendFiles` — reads that fill their buffers bring every key over intact.
    * `short_first_read_shifts_stream` — a first read of one byte still yields the right length,
      but leaves the seven zero bytes of the prefix in the stream: the shielding key sealed is
      shifted by them.
-/

namespace EncointerWorker.Enclave

open EncointerWorker.Lib (leBytes fromLeBytes length_leBytes fromLeBytes_leBytes)

variable {Cert Time : Type}

/-! ## §1. The certificate verifiers. -/

/-- `SGX_ERROR_UPDATE_NEEDED`. -/
def SGX_ERROR_UPDATE_NEEDED : SgxStatus := .other 0x4001

/-- What a rustls certificate verifier returns: `Ok(..Verified::assertion())`, or
    `Err(TLSError::WebPKIError(webpki::Error::ExtensionValueInvalid))`. -/
inductive CertVerdict where
  | assertion
  | extensionValueInvalid
  deriving DecidableEq, Repr

/-- The body of both verifiers; `none` is a panic. -/
def verifyPeerCert (env : CertEnv Cert Time) (outdatedOk : Bool) (certs : List Bytes) :
    Option CertVerdict :=
  -- `_certs[0]` panics on an empty list
  match certs[0]? with
  | none => none
  | some cert =>
    match verifyMraCert env cert with
    | none => none
    | some (.ok ()) => some .assertion
    | some (.error s) =>
      if s = SGX_ERROR_UPDATE_NEEDED then
        -- "outdated_ok is set, overriding outdated error"
        if outdatedOk then some .assertion else some .extensionValueInvalid
      else some .extensionValueInvalid

/-- `ClientAuth`, the server's verifier of client certificates. -/
structure ClientAuth where
  outdatedOk : Bool

/-- `ServerAuth`, the client's verifier of server certificates. -/
structure ServerAuth where
  outdatedOk : Bool

/-- `ClientAuth::verify_client_cert(certs)`. -/
def ClientAuth.verifyClientCert (self : ClientAuth) (env : CertEnv Cert Time)
    (certs : List Bytes) : Option CertVerdict :=
  verifyPeerCert env self.outdatedOk certs

/-- `ServerAuth::verify_server_cert(roots, certs, hostname, ocsp)`: only `certs` is read. -/
def ServerAuth.verifyServerCert (self : ServerAuth) (env : CertEnv Cert Time)
    (certs : List Bytes) : Option CertVerdict :=
  verifyPeerCert env self.outdatedOk certs

/-- A certificate that is just the prime256v1 OID: the key length byte after it is out of
    range. -/
theorem verifyMraCert_oid_only (env : CertEnv Cert Time) :
    verifyMraCert env PRIME256V1_OID = certPanic :=
  rfl

/-- **The peer can panic the verifier.**  Whatever the libraries answer and whatever
    `outdated_ok` is: an empty certificate list panics at `certs[0]` in both verifiers, and a
    certificate that ends right after the prime256v1 OID panics at `cert_der[offset]`. -/
theorem peer_cert_check_panics (env : CertEnv Cert Time) (client : ClientAuth)
    (server : ServerAuth) :
    client.verifyClientCert env [] = none ∧ server.verifyServerCert env [] = none ∧
      verifyMraCert env PRIME256V1_OID = certPanic ∧
      client.verifyClientCert env [PRIME256V1_OID] = none ∧
      server.verifyServerCert env [PRIME256V1_OID] = none := by
  have hoid := verifyMraCert_oid_only env
  refine ⟨rfl, rfl, hoid, ?_, ?_⟩
  · simp only [ClientAuth.verifyClientCert, verifyPeerCert, List.getElem?_cons_zero, hoid]
    rfl
  · simp only [ServerAuth.verifyServerCert, verifyPeerCert, List.getElem?_cons_zero, hoid]
    rfl

/-! ## §2. The stream of `send_files` and `receive_files`. -/

/-- `send_files(tls, rsa_pair, aes)`: the bytes its four `write`s put on the channel. -/
def sendFiles (rsaPair : Bytes) (aes : Bytes × Bytes) : Bytes :=
  leBytes 8 rsaPair.length ++ rsaPair ++ aes.1 ++ aes.2

/-- `tls.read(&mut buf)` into a zeroed buffer of `n` bytes, the channel handing over `k` of
    the bytes left (fewer at the end of the stream): the buffer, and the rest of the stream. -/
def readInto (k n : Nat) (stream : Bytes) : Bytes × Bytes :=
  let got := stream.take (min k n)
  (got ++ List.replicate (n - got.length) 0, stream.drop (min k n))

/-- What `receive_files` seals: `rsa3072::seal`'s bytes, then `aes::seal`'s key and IV. -/
structure Sealed where
  rsaPair : Bytes
  aesKey : Bytes
  aesIv : Bytes
  deriving DecidableEq, Repr

/-- `receive_files(tls)` on `stream`, its `i`-th `read` returning `chunk i` bytes. -/
def receiveFiles (chunk : Nat → Nat) (stream : Bytes) : Sealed :=
  let (keyLenArr, stream) := readInto (chunk 0) 8 stream
  let keyLen := fromLeBytes keyLenArr
  let (rsaPair, stream) := readInto (chunk 1) keyLen stream
  let (aesKey, stream) := readInto (chunk 2) 16 stream
  let (aesIv, _) := readInto (chunk 3) 16 stream
  ⟨rsaPair, aesKey, aesIv⟩

/-! ## §3. Reads that fill their buffers. -/

/-- A read that may fill its buffer from a stream that has the bytes fills it with them. -/
theorem readInto_full {k n : Nat} {bs : Bytes} (rest : Bytes) (hk : n ≤ k)
    (hbs : bs.length = n) : readInto k n (bs ++ rest) = (bs, rest) := by
  subst hbs
  have hmin : min k bs.length = bs.length := Nat.min_eq_right hk
  simp [readInto, hmin]

/-- **Full reads carry the keys intact.**  When each of the four reads may fill its buffer
    (the `i`-th hands over at least the bytes its buffer holds), `receive_files` seals exactly
    the shielding key, AES key and IV `send_files` sent. -/
theorem receiveFiles_sendFiles (rsaPair key iv : Bytes) (hkey : key.length = 16)
    (hiv : iv.length = 16) (hlen : rsaPair.length < 256 ^ 8) (chunk : Nat → Nat)
    (h₀ : 8 ≤ chunk 0) (h₁ : rsaPair.length ≤ chunk 1) (h₂ : 16 ≤ chunk 2)
    (h₃ : 16 ≤ chunk 3) :
    receiveFiles chunk (sendFiles rsaPair (key, iv)) = ⟨rsaPair, key, iv⟩ := by
  -- the four reads, each taking exactly its field off the stream
  have hprefix : readInto (chunk 0) 8 (sendFiles rsaPair (key, iv)) =
      (leBytes 8 rsaPair.length, rsaPair ++ (key ++ iv)) := by
    unfold sendFiles
    rw [List.append_assoc, List.append_assoc]
    exact readInto_full _ h₀ (length_leBytes 8 rsaPair.length)
  have hkeyLen : fromLeBytes (leBytes 8 rsaPair.length) = rsaPair.length := by
    rw [fromLeBytes_leBytes, Nat.mod_eq_of_lt hlen]
  have hpair := readInto_full (key ++ iv) h₁ rfl
  have haesKey := readInto_full iv h₂ hkey
  have haesIv := readInto_full [] h₃ hiv
  rw [List.append_nil] at haesIv
  simp only [receiveFiles, hprefix, hkeyLen, hpair, haesKey, haesIv]

/-- The shielding key `01 02 03` with AES key `AA…` and IV `BB…`, each read handing over the
    bytes its buffer holds and no more, comes over intact. -/
theorem full_reads_seal_keys :
    (List.replicate 16 0xAA : Bytes).length = 16 ∧ (List.replicate 16 0xBB : Bytes).length = 16 ∧
      ([1, 2, 3] : Bytes).length < 256 ^ 8 ∧
      receiveFiles (fun i => [8, 3, 16, 16].getD i 0)
          (sendFiles [1, 2, 3] (List.replicate 16 0xAA, List.replicate 16 0xBB)) =
        ⟨[1, 2, 3], List.replicate 16 0xAA, List.replicate 16 0xBB⟩ :=
  ⟨rfl, rfl, by decide,
    receiveFiles_sendFiles [1, 2, 3] _ _ rfl rfl (by decide) (fun i => [8, 3, 16, 16].getD i 0)
      (le_refl 8) (le_refl 3) (le_refl 16) (le_refl 16)⟩

/-! ## §4. A short first read. -/

/-- The prefix of a length below `256`: the length byte, then seven zeros. -/
theorem leBytes_small {n : Nat} (hn : n < 256) :
    leBytes 8 n = n.toUInt8 :: List.replicate 7 0 := by
  have hdiv : n / 256 = 0 := Nat.div_eq_of_lt hn
  simp only [leBytes, Nat.mod_eq_of_lt hn, hdiv, Nat.zero_div, Nat.zero_mod]
  rfl

/-- **A short first read shifts the stream.**  For a shielding key of `1` to `255` bytes, a
    first `read` that returns one byte still gives the right length (the other seven bytes of
    the prefix are zero, as is the buffer), but those seven zero bytes stay in the stream:
    the bytes sealed as the shielding key are the zeros followed by a prefix of the key. -/
theorem short_first_read_shifts_stream (rsaPair key iv : Bytes) (hlen : rsaPair.length < 256)
    (m : Nat) (hm : rsaPair.length ≤ m) :
    (receiveFiles (fun i => if i = 0 then 1 else m) (sendFiles rsaPair (key, iv))).rsaPair =
      (List.replicate 7 0 ++ rsaPair ++ key ++ iv).take rsaPair.length := by
  have hfirst : readInto 1 8 (sendFiles rsaPair (key, iv)) =
      ([rsaPair.length.toUInt8] ++ List.replicate 7 0,
        List.replicate 7 0 ++ rsaPair ++ key ++ iv) := by
    simp [readInto, sendFiles, leBytes_small hlen]
  have hkeyLen : fromLeBytes ([rsaPair.length.toUInt8] ++ List.replicate 7 0) =
      rsaPair.length := by
    simp [fromLeBytes, Nat.ofDigits, Nat.mod_eq_of_lt hlen]
  have htake : ((List.replicate 7 0 ++ rsaPair ++ key ++ iv).take rsaPair.length).length =
      rsaPair.length := by
    simp only [List.length_take, List.length_append, List.length_replicate]
    omega
  simp only [receiveFiles, if_pos, hfirst]
  rw [hkeyLen]
  simp only [readInto, Nat.min_eq_right (show rsaPair.length ≤ m from hm), if_neg one_ne_zero,
    htake, Nat.sub_self, List.replicate_zero, List.append_nil]

/-- The shielding key `01 02 03`, with AES key `AA…` and IV `BB…`: a first read of one byte
    seals `00 00 00` as the shielding key. -/
theorem short_read_seals_zeros :
    (receiveFiles (fun i => if i = 0 then 1 else 16)
        (sendFiles [1, 2, 3] (List.replicate 16 0xAA, List.replicate 16 0xBB))).rsaPair =
      [0, 0, 0] := by
  rw [short_first_read_shifts_stream [1, 2, 3] _ _ (by decide) 16 (by decide)]
  rfl

end EncointerWorker.Enclave
