import EncointerWorker.Enclave.Types

/-!
  EncointerWorker.Enclave.Cert — the acceptance of a peer's remote-attestation certificate in
  mutual RA (`verify_mra_cert`, `verify_attn_report` in `enclave/src/cert.rs`).

  The DER certificate is searched, as bytes, for the prime256v1 OID (the public key follows)
  and for the Netscape-comment OID (the payload `report|signature|signing certificate`
  follows).  The signing certificate's chain to the IAS root is checked, then the report's
  signature under it; `verify_attn_report` then checks the report's quote status and the
  quote's MRENCLAVE.  webpki, base64, serde_json, the clock and the ocall are parameters.

  Main results:
    * `verifyAttnReport_ok`, `verifyMraCert_ok` — an accepted certificate has a report signed
      under its signing certificate, an accepted quote status, and this enclave's MRENCLAVE.
    * `verifyAttnReport_pubK`, `verifyMraCert_chain` — the verdict is the same whatever the
      certificate's key, and whatever the chain check says: both results are only logged.
    * `mra_cert_accepted_unbound` — a certificate whose signing certificate does not chain to
      the IAS root, and whose quote's report data is not the certificate's key, is accepted.
-/

namespace EncointerWorker.Enclave

open EncointerWorker.Relay

variable {Cert Time : Type}

/-! ## §1. The report, the quote, and what is left uninterpreted. -/

/-- The fields of an IAS attestation report that `verify_attn_report` reads, each present when
    it is a JSON string; the two the code only decodes or slices are kept as UTF-8 bytes. -/
structure AttnReport where
  timestamp : Option String
  isvEnclaveQuoteStatus : Option String
  platformInfoBlob : Option Bytes
  isvEnclaveQuoteBody : Option Bytes
  deriving DecidableEq, Repr

/-- The fields of `sgx_quote_t` that are compared with something. -/
structure SgxQuote where
  mrEnclave : Bytes
  reportData : Bytes
  deriving DecidableEq, Repr

/-- The libraries, clocks and ocalls `verify_mra_cert` calls. -/
structure CertEnv (Cert Time : Type) where
  /-- `base64::decode` (standard alphabet). -/
  base64Decode : Bytes → Option Bytes
  /-- `webpki::EndEntityCert::from`. -/
  parseCert : Bytes → Option Cert
  /-- `IAS_REPORT_CA`, the PEM file of the IAS root. -/
  iasReportCa : Bytes
  /-- `webpki::Time::try_from(SystemTime::now())`. -/
  now : Option Time
  /-- `verify_is_valid_tls_server_cert` against the IAS root, with the given chain. -/
  validTlsServerCert : Cert → Bytes → Time → Bool
  /-- `verify_signature(&webpki::RSA_PKCS1_2048_8192_SHA256, report, sig)`. -/
  verifySignature : Cert → Bytes → Bytes → Bool
  /-- `serde_json::from_slice`, read into the report's fields. -/
  parseReport : Bytes → Option AttnReport
  /-- `DateTime::parse_from_str(.., "%Y-%m-%dT%H:%M:%S%.f%z")`, as a Unix timestamp. -/
  parseTimestamp : String → Option Int
  /-- `SystemTime::now().duration_since(UNIX_EPOCH)`, in seconds. -/
  unixNow : Option Int
  /-- `ocall_get_update_info(platform_info, 1, &mut update_info)`: its result and `rt`. -/
  getUpdateInfo : Bytes → SgxStatus × SgxStatus
  /-- `ptr::read(quote.as_ptr() as *const sgx_quote_t)`. -/
  readQuote : Bytes → SgxQuote
  /-- `attestation::get_mrenclave_of_self()`. -/
  mrenclaveOfSelf : Option Bytes

/-! ## §2. Parsing the certificate. -/

/-- `SgxResult` over `Option`: `none` is a panic, `some (.error s)` is `Err(s)`. -/
abbrev CertM := ExceptT SgxStatus Option

/-- A panic (`expect`, an explicit panic, an index out of range). -/
def certPanic {α : Type} : CertM α := ExceptT.mk none

/-- `.sgx_error()?` on an `Option` or a `Result`: a missing value is
    `Err(SGX_ERROR_UNEXPECTED)`. -/
def sgxError {α : Type} : Option α → CertM α
  | some a => pure a
  | none => throw .errorUnexpected

/-- `.expect(..)`, or an indexing that panics out of range. -/
def expectSome {α : Type} : Option α → CertM α
  | some a => pure a
  | none => certPanic

/-- `data.windows(pat.len()).position(|w| w == pat)`, for a non-empty pattern. -/
def position (pat : Bytes) : Bytes → Option Nat
  | [] => none
  | b :: bs => if pat.isPrefixOf (b :: bs) then some 0 else (position pat bs).map (· + 1)

/-- `data[a..b]`: `none` (a panic) unless `a ≤ b ≤ data.len()`. -/
def slice (data : Bytes) (a b : Nat) : Option Bytes :=
  if a ≤ b ∧ b ≤ data.length then some ((data.drop a).take (b - a)) else none

/-- `prime256v1_oid`. -/
def PRIME256V1_OID : Bytes := [0x06, 0x08, 0x2A, 0x86, 0x48, 0xCE, 0x3D, 0x03, 0x01, 0x07]

/-- `ns_cmt_oid`. -/
def NS_CMT_OID : Bytes := [0x06, 0x09, 0x60, 0x86, 0x48, 0x01, 0x86, 0xF8, 0x42, 0x01, 0x0D]

/-- The length block `verify_mra_cert` reads twice: a length byte at `offset`; above `0x80`
    the two bytes after it instead.  Returns the length and the offset of the contents. -/
def derLength (certDer : Bytes) (offset : Nat) : CertM (Nat × Nat) := do
  let len ← expectSome certDer[offset]?
  if len.toNat > 0x80 then
    let hi ← expectSome certDer[offset + 1]?
    let lo ← expectSome certDer[offset + 2]?
    pure (hi.toNat * 0x100 + lo.toNat, offset + 2 + 1)
  else pure (len.toNat, offset + 1)

/-- The public key after the prime256v1 OID, without its `00 04` prefix. -/
def certPublicKey (certDer : Bytes) : CertM Bytes := do
  let offset ← sgxError (position PRIME256V1_OID certDer)
  -- 10 + TAG (0x03)
  let (len, offset) ← derLength certDer (offset + 11)
  -- skip "00 04"
  expectSome (slice certDer (offset + 2) (offset + len))

/-- The payload after the Netscape-comment OID. -/
def certNetscapeComment (certDer : Bytes) : CertM Bytes := do
  let offset ← sgxError (position NS_CMT_OID certDer)
  -- 11 + TAG (0x04)
  let (len, offset) ← derLength certDer (offset + 12)
  expectSome (slice certDer offset (offset + len))

/-! ## §3. `verify_attn_report`. -/

/-- The quote statuses `verify_attn_report` tells apart. -/
inductive QuoteStatus where
  | ok
  | groupOutOfDate
  | groupRevoked
  | configurationNeeded
  | other
  deriving DecidableEq, Repr

/-- `match quote_status.as_ref()`. -/
def QuoteStatus.ofString : String → QuoteStatus
  | "OK" => .ok
  | "GROUP_OUT_OF_DATE" => .groupOutOfDate
  | "GROUP_REVOKED" => .groupRevoked
  | "CONFIGURATION_NEEDED" => .configurationNeeded
  | _ => .other

/-- The value of an ASCII hex digit. -/
def hexDigit (c : UInt8) : Option Nat :=
  if 0x30 ≤ c ∧ c ≤ 0x39 then some (c.toNat - 0x30)
  else if 0x61 ≤ c ∧ c ≤ 0x66 then some (c.toNat - 0x61 + 10)
  else if 0x41 ≤ c ∧ c ≤ 0x46 then some (c.toNat - 0x41 + 10)
  else none

/-- The digits of `from_str_radix(.., 16)`, each step checked against `u8` overflow. -/
def hexValue (acc : Nat) : Bytes → Option Nat
  | [] => some acc
  | c :: cs => do
    let d ← hexDigit c
    if acc * 16 + d < 256 then hexValue (acc * 16 + d) cs else none

/-- `u8::from_str_radix(s, 16)`: an optional `+`, then at least one hex digit. -/
def fromStrRadix16 : Bytes → Option UInt8
  | [] => none
  | [0x2B] => none
  | 0x2B :: digits => (hexValue 0 digits).map Nat.toUInt8
  | digits => (hexValue 0 digits).map Nat.toUInt8

/-- The platform info of `platformInfoBlob`: the hex pairs after its 4-byte TLV header.  Below
    8 characters, `pib.len() - 8` underflows and the slice panics. -/
def platformInfo (pib : Bytes) : CertM Bytes :=
  if pib.length < 8 then certPanic
  else
    (List.range ((pib.length - 8) / 2)).mapM fun i => do
      let digits ← expectSome (slice pib (i * 2 + 8) (i * 2 + 10))
      sgxError (fromStrRadix16 digits)

section Verify

variable (env : CertEnv Cert Time)

/-- Step 1 of `verify_attn_report`, "Check timestamp is within 24H (90day is recommended by
    Intel)": the timestamp and the clock are read, and their difference is only logged. -/
def checkTimestamp (report : AttnReport) : CertM Unit :=
  match report.timestamp with
  | some time => do
    let _ts ← sgxError (env.parseTimestamp (time ++ "+0000"))
    let _now ← sgxError env.unixNow
    pure ()
  -- "Failed to fetch timestamp from attestation report"
  | none => throw .errorUnexpected

/-- The branch of a tolerated quote status: the platform info goes to the update-info ocall. -/
def checkUpdateInfo (report : AttnReport) : CertM Unit :=
  match report.platformInfoBlob with
  | some pib => do
    let buf ← platformInfo pib
    let (res, rt) := env.getUpdateInfo buf
    -- "ocall_get_update_info failed"
    if res ≠ .success then throw res
    -- "ocall_get_update_info unsuccessful"
    if rt ≠ .success then throw rt
  -- "Failed to fetch platformInfoBlob from attestation report"
  | none => throw .errorUnexpected

/-- Step 2 of `verify_attn_report`, "Verify quote status (mandatory field)". -/
def checkQuoteStatus (report : AttnReport) : CertM Unit :=
  match report.isvEnclaveQuoteStatus with
  | some quoteStatus =>
    match QuoteStatus.ofString quoteStatus with
    | .ok => pure ()
    | .groupOutOfDate | .groupRevoked | .configurationNeeded => checkUpdateInfo env report
    | .other => throw .errorUnexpected
  -- "Failed to fetch isvEnclaveQuoteStatus from attestation report"
  | none => throw .errorUnexpected

/-- Step 3 of `verify_attn_report`, "Verify quote body". -/
def checkQuoteBody (report : AttnReport) (pubK : Bytes) : CertM Unit :=
  match report.isvEnclaveQuoteBody with
  | some quoteRaw => do
    let quote ← sgxError (env.base64Decode quoteRaw)
    let sgxQuote := env.readQuote quote
    let ti ← sgxError env.mrenclaveOfSelf
    -- "mr_enclave is not equal to self"
    if sgxQuote.mrEnclave ≠ ti then throw .errorUnexpected
    -- `if report_data == pub_k { info!("Mutual RA done!") }`: logged only
    if sgxQuote.reportData = pubK then pure () else pure ()
  -- "Failed to fetch isvEnclaveQuoteBody from attestation report"
  | none => throw .errorUnexpected

/-- `verify_attn_report(report_raw, pub_k)`. -/
def verifyAttnReport (reportRaw pubK : Bytes) : CertM Unit := do
  let attnReport ← sgxError (env.parseReport reportRaw)
  checkTimestamp env attnReport
  checkQuoteStatus env attnReport
  checkQuoteBody env attnReport pubK

/-- `verify_mra_cert(cert_der)`. -/
def verifyMraCert (certDer : Bytes) : CertM Unit := do
  let pubK ← certPublicKey certDer
  let payload ← certNetscapeComment certDer
  -- Extract each field
  let fields := payload.splitOn 0x7C
  let attnReportRaw ← sgxError fields[0]?
  let sigRaw ← sgxError fields[1]?
  let sig ← sgxError (env.base64Decode sigRaw)
  let sigCertRaw ← sgxError fields[2]?
  let sigCertDec ← sgxError (env.base64Decode sigCertRaw)
  -- "Bad DER"
  let sigCert ← expectSome (env.parseCert sigCertDec)
  -- Verify if the signing cert is issued by Intel CA
  let iasCaStripped := env.iasReportCa.filter fun x => x != 0x0d && x != 0x0a
  -- the lengths of "-----BEGIN CERTIFICATE-----" and "-----END CERTIFICATE-----"
  let iasCaCore ← expectSome (slice iasCaStripped 27 (iasCaStripped.length - 25))
  let iasCertDec ← sgxError (env.base64Decode iasCaCore)
  let now ← sgxError env.now
  -- `Ok(_) => info!("Cert is good"), Err(e) => error!(..)`: logged only
  if env.validTlsServerCert sigCert iasCertDec now then pure () else pure ()
  -- Verify the signature against the signing cert; "Signature verification error" panics
  if !env.verifySignature sigCert attnReportRaw sig then certPanic
  verifyAttnReport env attnReportRaw pubK

end Verify

/-! ## §4. What an accepted certificate has. -/

section Inversion

variable {ε α β : Type}

theorem exceptOption_bind_eq_pure {x : ExceptT ε Option α} {f : α → ExceptT ε Option β} {b : β}
    (h : (x >>= f) = pure b) : ∃ a, x = pure a ∧ f a = pure b := by
  rcases x with _ | ⟨_ | a⟩
  · cases h
  · cases h
  · exact ⟨a, rfl, h⟩

theorem sgxError_eq_pure {o : Option α} {a : α} (h : sgxError o = pure a) : o = some a := by
  cases o with
  | none => cases h
  | some a' =>
    cases h
    rfl

end Inversion

section Spec

variable (env : CertEnv Cert Time)

theorem checkUpdateInfo_ok {report : AttnReport} (h : checkUpdateInfo env report = pure ()) :
    ∃ pib buf, report.platformInfoBlob = some pib ∧ platformInfo pib = pure buf ∧
      env.getUpdateInfo buf = (.success, .success) := by
  unfold checkUpdateInfo at h
  cases hpib : report.platformInfoBlob with
  | none =>
    rw [hpib] at h
    cases h
  | some pib =>
    rw [hpib] at h
    obtain ⟨buf, hbuf, h⟩ := exceptOption_bind_eq_pure h
    rcases hup : env.getUpdateInfo buf with ⟨res, rt⟩
    rw [hup] at h
    dsimp only at h
    -- both statuses of the ocall must be `SGX_SUCCESS`
    by_cases hres : res = .success
    · rw [if_neg (not_not.mpr hres)] at h
      by_cases hrt : rt = .success
      · exact ⟨pib, buf, rfl, hbuf, by rw [hup, hres, hrt]⟩
      · rw [if_pos hrt] at h
        cases h
    · rw [if_pos hres] at h
      cases h

/-- The quote status passes step 2: `OK`, or a tolerated status whose platform info decodes
    and whose update-info ocall succeeds. -/
def StatusAccepted (report : AttnReport) : Prop :=
  ∃ status, report.isvEnclaveQuoteStatus = some status ∧
    (QuoteStatus.ofString status = .ok ∨
      QuoteStatus.ofString status ≠ .other ∧ ∃ pib buf, report.platformInfoBlob = some pib ∧
        platformInfo pib = pure buf ∧ env.getUpdateInfo buf = (.success, .success))

theorem checkQuoteStatus_ok {report : AttnReport} (h : checkQuoteStatus env report = pure ()) :
    StatusAccepted env report := by
  unfold checkQuoteStatus at h
  cases hs : report.isvEnclaveQuoteStatus with
  | none =>
    rw [hs] at h
    cases h
  | some status =>
    rw [hs] at h
    dsimp only at h
    refine ⟨status, hs, ?_⟩
    -- `OK` passes; the three tolerated statuses go to the ocall; any other fails
    cases hq : QuoteStatus.ofString status
    case ok => exact .inl rfl
    case other =>
      rw [hq] at h
      cases h
    all_goals
      rw [hq] at h
      exact .inr ⟨by simp, checkUpdateInfo_ok env h⟩

theorem checkQuoteBody_ok {report : AttnReport} {pubK : Bytes}
    (h : checkQuoteBody env report pubK = pure ()) :
    ∃ quoteRaw quote ti, report.isvEnclaveQuoteBody = some quoteRaw ∧
      env.base64Decode quoteRaw = some quote ∧ env.mrenclaveOfSelf = some ti ∧
      (env.readQuote quote).mrEnclave = ti := by
  unfold checkQuoteBody at h
  cases hb : report.isvEnclaveQuoteBody with
  | none =>
    rw [hb] at h
    cases h
  | some quoteRaw =>
    rw [hb] at h
    obtain ⟨quote, hquote, h⟩ := exceptOption_bind_eq_pure h
    obtain ⟨ti, hti, h⟩ := exceptOption_bind_eq_pure h
    refine ⟨quoteRaw, quote, ti, rfl, sgxError_eq_pure hquote, sgxError_eq_pure hti, ?_⟩
    -- a different MRENCLAVE fails
    by_contra hne
    dsimp only at h
    rw [if_pos hne] at h
    cases h

/-- **The key is not checked.**  Step 3 gives the same verdict whatever the certificate's key. -/
theorem checkQuoteBody_pubK (report : AttnReport) (pubK pubK' : Bytes) :
    checkQuoteBody env report pubK = checkQuoteBody env report pubK' := by
  simp only [checkQuoteBody, ite_self]

theorem verifyAttnReport_pubK (reportRaw pubK pubK' : Bytes) :
    verifyAttnReport env reportRaw pubK = verifyAttnReport env reportRaw pubK' := by
  simp only [verifyAttnReport, checkQuoteBody_pubK env _ pubK pubK']

/-- **What `verify_attn_report` checks**: a report that parses, an accepted quote status, and a
    quote of this enclave's MRENCLAVE. -/
theorem verifyAttnReport_ok {reportRaw pubK : Bytes}
    (h : verifyAttnReport env reportRaw pubK = pure ()) :
    ∃ report, env.parseReport reportRaw = some report ∧ StatusAccepted env report ∧
      ∃ quoteRaw quote ti, report.isvEnclaveQuoteBody = some quoteRaw ∧
        env.base64Decode quoteRaw = some quote ∧ env.mrenclaveOfSelf = some ti ∧
        (env.readQuote quote).mrEnclave = ti := by
  obtain ⟨report, hreport, h⟩ := exceptOption_bind_eq_pure h
  obtain ⟨_, -, h⟩ := exceptOption_bind_eq_pure h
  obtain ⟨_, hstatus, h⟩ := exceptOption_bind_eq_pure h
  exact ⟨report, sgxError_eq_pure hreport, checkQuoteStatus_ok env hstatus, checkQuoteBody_ok env h⟩

/-- **What `verify_mra_cert` checks**: the certificate carries a key and a comment whose first
    field is a report; a signature decoded from the second field verifies the report under the
    certificate parsed from the third, and the report passes `verify_attn_report`. -/
theorem verifyMraCert_ok {certDer : Bytes} (h : verifyMraCert env certDer = pure ()) :
    ∃ pubK payload attnReportRaw sig sigCert,
      certPublicKey certDer = pure pubK ∧ certNetscapeComment certDer = pure payload ∧
      (payload.splitOn 0x7C)[0]? = some attnReportRaw ∧
      env.verifySignature sigCert attnReportRaw sig = true ∧
      verifyAttnReport env attnReportRaw pubK = pure () := by
  obtain ⟨pubK, hpub, h⟩ := exceptOption_bind_eq_pure h
  obtain ⟨payload, hpay, h⟩ := exceptOption_bind_eq_pure h
  dsimp only at h
  obtain ⟨attnReportRaw, hraw, h⟩ := exceptOption_bind_eq_pure h
  obtain ⟨sigRaw, -, h⟩ := exceptOption_bind_eq_pure h
  obtain ⟨sig, -, h⟩ := exceptOption_bind_eq_pure h
  obtain ⟨sigCertRaw, -, h⟩ := exceptOption_bind_eq_pure h
  obtain ⟨sigCertDec, -, h⟩ := exceptOption_bind_eq_pure h
  obtain ⟨sigCert, -, h⟩ := exceptOption_bind_eq_pure h
  obtain ⟨iasCaCore, -, h⟩ := exceptOption_bind_eq_pure h
  obtain ⟨iasCertDec, -, h⟩ := exceptOption_bind_eq_pure h
  obtain ⟨now, -, h⟩ := exceptOption_bind_eq_pure h
  -- the chain check's verdict leads to the same run either way
  rw [ite_self] at h
  by_cases hsig : env.verifySignature sigCert attnReportRaw sig = true
  · rw [if_neg (by simp [hsig])] at h
    exact ⟨pubK, payload, attnReportRaw, sig, sigCert, hpub, hpay, sgxError_eq_pure hraw, hsig, h⟩
  · -- "Signature verification error" panics
    rw [if_pos (by simpa using hsig)] at h
    cases h

/-- `verify_attn_report` does not consult the chain check. -/
theorem verifyAttnReport_chain (valid : Cert → Bytes → Time → Bool) :
    verifyAttnReport { env with validTlsServerCert := valid } = verifyAttnReport env :=
  rfl

/-- **The chain is not checked.**  `verify_mra_cert` gives the same verdict whatever
    `verify_is_valid_tls_server_cert` says of the signing certificate. -/
theorem verifyMraCert_chain (valid : Cert → Bytes → Time → Bool) (certDer : Bytes) :
    verifyMraCert { env with validTlsServerCert := valid } certDer = verifyMraCert env certDer := by
  simp only [verifyMraCert, ite_self, verifyAttnReport_chain]

end Spec

/-! ## §5. A certificate that binds nothing. -/

/-- A certificate: the prime256v1 OID and the key `AA BB`, then the Netscape-comment OID and the
    payload `01|02|03`. -/
def unboundCert : Bytes :=
  PRIME256V1_OID ++ [0x03, 4, 0x00, 0x04, 0xAA, 0xBB] ++
    NS_CMT_OID ++ [0x04, 5, 0x01, 0x7C, 0x02, 0x7C, 0x03]

/-- Libraries under which the signing certificate does not chain to the IAS root, the report
    signature verifies, and the report says `OK` for a quote of this enclave whose report data
    is `CC`. -/
def unboundEnv : CertEnv Bytes Nat where
  base64Decode := some
  parseCert := some
  iasReportCa := List.replicate 60 0x41
  now := some 0
  validTlsServerCert _ _ _ := false
  verifySignature _ _ _ := true
  parseReport _ := some ⟨some "2020-01-01T00:00:00.000000", some "OK", none, some [0x09]⟩
  parseTimestamp _ := some 0
  unixNow := some 0
  getUpdateInfo _ := (.success, .success)
  readQuote _ := ⟨[0x05], [0xCC]⟩
  mrenclaveOfSelf := some [0x05]

/-- **An unbound certificate is accepted.**  The signing certificate fails the chain check, and
    the quote's report data `CC` is not the certificate's key `AA BB`; `verify_mra_cert` returns
    `Ok(())`. -/
theorem mra_cert_accepted_unbound :
    unboundEnv.validTlsServerCert [0x03] [0x41, 0x41, 0x41, 0x41, 0x41, 0x41, 0x41, 0x41] 0 = false ∧
    certPublicKey unboundCert = pure [0xAA, 0xBB] ∧
    (unboundEnv.readQuote [0x09]).reportData ≠ [0xAA, 0xBB] ∧
    verifyMraCert unboundEnv unboundCert = pure () := by
  refine ⟨rfl, rfl, by decide, ?_⟩
  rfl

end EncointerWorker.Enclave
