import Mathlib.Data.FinEnum
import Mathlib.Logic.Equiv.List
import EncointerWorker.Lib.Scale
import EncointerWorker.Stf.Types

/-!
  EncointerWorker.Stf.Encoding — the payloads trusted calls and getters are signed over
  (`TrustedCall::sign`, `TrustedCallSigned::verify_signature`, `TrustedGetter::sign`,
  `TrustedGetterSigned::verify_signature` in `stf/src/lib.rs`).

  `TrustedCall` and `TrustedGetter` derive `Encode`: the variant index, then the fields in
  order.  The call's payload appends the `u32` nonce, the 32 bytes of `mrenclave` and the
  shard.  The fields whose types come from outside the worker (`AccountId`,
  `CurrencyIdentifier`, `BalanceType`, `ProofOfAttendance`, `Attestation`) are encoded by a
  `FieldCodec`; the rest is SCALE's (`Lib.Scale`).

  Main results:
    * `TrustedCall.encode_append_inj` — with self-delimiting field codes, a call's encoding
      splits off the front of a message.
    * `signed_payloads_separated` — the call payload determines call, nonce, `mrenclave` and
      shard; with 32-byte accounts and currency identifiers no getter encodes as a call
      payload.
-/

namespace EncointerWorker.Stf

open EncointerWorker.Lib

variable {Acc Cid : Type}

/-! ## §1. The derived encodings. -/

/-- The SCALE encoders of the field types that come from outside the worker. -/
structure FieldCodec (Acc Cid : Type) where
  account : Acc → Bytes
  cid : Cid → Bytes
  balance : Int → Bytes
  proofOfAttendance : ProofOfAttendance Acc Cid → Bytes
  attestation : Attestation Acc Cid → Bytes

/-- Every field encoder is injective and prefix-free. -/
structure FieldCodec.Sound (F : FieldCodec Acc Cid) : Prop where
  account : SelfDelimiting F.account
  cid : SelfDelimiting F.cid
  balance : SelfDelimiting F.balance
  proofOfAttendance : SelfDelimiting F.proofOfAttendance
  attestation : SelfDelimiting F.attestation

/-- `TrustedCall::encode`, as `#[derive(Encode)]` writes it. -/
def TrustedCall.encode (F : FieldCodec Acc Cid) : TrustedCall Acc Cid → Bytes
  | .balanceTransfer from_ to_ cid value =>
    0 :: (F.account from_ ++ F.account to_ ++ F.cid cid ++ F.balance value)
  | .ceremoniesRegisterParticipant from_ cid proof =>
    1 :: (F.account from_ ++ F.cid cid ++ encodeOption F.proofOfAttendance proof)
  | .ceremoniesRegisterAttestations from_ attestations =>
    2 :: (F.account from_ ++ encodeVec F.attestation attestations)
  | .ceremoniesGrantReputation ceremonyMaster cid reputable =>
    3 :: (F.account ceremonyMaster ++ F.cid cid ++ F.account reputable)

/-- `TrustedGetter::encode`, as `#[derive(Encode)]` writes it. -/
def TrustedGetter.encode (F : FieldCodec Acc Cid) : TrustedGetter Acc Cid → Bytes
  | .balance who cid => 0 :: (F.account who ++ F.cid cid)
  | .participantIndex who cid => 1 :: (F.account who ++ F.cid cid)
  | .meetupIndex who cid => 2 :: (F.account who ++ F.cid cid)
  | .attestations who cid => 3 :: (F.account who ++ F.cid cid)
  | .meetupRegistry who cid => 4 :: (F.account who ++ F.cid cid)

/-- The codec's call, getter and shard encoders are the derived ones over `F`. -/
structure Codec.Derives (C : Codec Acc Cid) (F : FieldCodec Acc Cid) : Prop where
  cid : C.encodeCid = F.cid
  call : C.encodeCall = TrustedCall.encode F
  getter : C.encodeGetter = TrustedGetter.encode F

/-- The calls SCALE can encode: `Vec::encode` panics on `2^32` attestations or more. -/
def TrustedCall.FitsCompact : TrustedCall Acc Cid → Prop
  | .ceremoniesRegisterAttestations _ attestations => attestations.length < 2 ^ 32
  | _ => True

instance TrustedCall.decidableFitsCompact : (c : TrustedCall Acc Cid) → Decidable c.FitsCompact
  | .balanceTransfer .. => isTrue trivial
  | .ceremoniesRegisterParticipant .. => isTrue trivial
  | .ceremoniesRegisterAttestations _ attestations =>
    inferInstanceAs (Decidable (attestations.length < 2 ^ 32))
  | .ceremoniesGrantReputation .. => isTrue trivial

/-! ## §2. Payloads parse back. -/

section Parse

variable {F : FieldCodec Acc Cid}

/-- The nonce is SCALE's `u32`. -/
theorem encodeU32_eq_leBytes (n : Nat) : encodeU32 n = leBytes 4 n := by
  simp only [encodeU32, leBytes, Nat.div_div_eq_div_mul]

/-- **A call's encoding splits off the front of a message**, field by field. -/
theorem TrustedCall.encode_append_inj (hF : F.Sound) {c c' : TrustedCall Acc Cid}
    {r r' : Bytes} (hc : c.FitsCompact) (hc' : c'.FitsCompact)
    (hmsg : c.encode F ++ r = c'.encode F ++ r') : c = c' ∧ r = r' := by
  -- equal variant bytes leave the four diagonal cases; the fields then split in order
  cases c <;> cases c' <;>
    simp only [TrustedCall.encode, List.cons_append, List.cons.injEq, List.append_assoc,
      true_and] at hmsg
  case balanceTransfer.balanceTransfer from_ to_ cid value from' to' cid' value' =>
    obtain ⟨rfl, h₁⟩ := hF.account _ _ _ _ hmsg
    obtain ⟨rfl, h₂⟩ := hF.account _ _ _ _ h₁
    obtain ⟨rfl, h₃⟩ := hF.cid _ _ _ _ h₂
    obtain ⟨rfl, rfl⟩ := hF.balance _ _ _ _ h₃
    exact ⟨rfl, rfl⟩
  case ceremoniesRegisterParticipant.ceremoniesRegisterParticipant from_ cid proof from' cid'
      proof' =>
    obtain ⟨rfl, h₁⟩ := hF.account _ _ _ _ hmsg
    obtain ⟨rfl, h₂⟩ := hF.cid _ _ _ _ h₁
    obtain ⟨rfl, rfl⟩ := encodeOption_selfDelimiting hF.proofOfAttendance _ _ _ _ h₂
    exact ⟨rfl, rfl⟩
  case ceremoniesRegisterAttestations.ceremoniesRegisterAttestations from_ attestations from'
      attestations' =>
    obtain ⟨rfl, h₁⟩ := hF.account _ _ _ _ hmsg
    obtain ⟨rfl, rfl⟩ := encodeVec_append_inj hF.attestation hc hc' h₁
    exact ⟨rfl, rfl⟩
  case ceremoniesGrantReputation.ceremoniesGrantReputation master cid reputable master' cid'
      reputable' =>
    obtain ⟨rfl, h₁⟩ := hF.account _ _ _ _ hmsg
    obtain ⟨rfl, h₂⟩ := hF.cid _ _ _ _ h₁
    obtain ⟨rfl, rfl⟩ := hF.account _ _ _ _ h₂
    exact ⟨rfl, rfl⟩
  -- different variant bytes
  all_goals exact absurd hmsg.1 (by decide)

/-- The call payload determines the call, the nonce, `mrenclave` and the shard. -/
theorem signedPayload_inj (hF : F.Sound) {C : Codec Acc Cid} (hC : C.Derives F)
    {c c' : TrustedCall Acc Cid} {n n' : Nat} {m m' : Bytes} {s s' : Cid}
    (hc : c.FitsCompact) (hc' : c'.FitsCompact) (hn : n < 2 ^ 32) (hn' : n' < 2 ^ 32)
    (hm : m.length = 32) (hm' : m'.length = 32)
    (heq : signedPayload C c n m s = signedPayload C c' n' m' s') :
    c = c' ∧ n = n' ∧ m = m' ∧ s = s' := by
  simp only [signedPayload, hC.call, hC.cid, List.append_assoc] at heq
  -- the call splits off, then the four nonce bytes, then the 32 bytes of `mrenclave`
  obtain ⟨rfl, h₁⟩ := TrustedCall.encode_append_inj hF hc hc' heq
  rw [encodeU32_eq_leBytes, encodeU32_eq_leBytes] at h₁
  obtain ⟨hnonce, h₂⟩ := List.append_inj h₁ (by simp)
  obtain ⟨rfl, hshard⟩ := List.append_inj h₂ (by rw [hm, hm'])
  exact ⟨rfl, leBytes_inj (by omega) (by omega) hnonce, rfl, hF.cid.injective hshard⟩

/-- With 32-byte accounts and currency identifiers a getter encodes to 65 bytes. -/
theorem TrustedGetter.length_encode (hacc : ∀ a, (F.account a).length = 32)
    (hcid : ∀ c, (F.cid c).length = 32) (g : TrustedGetter Acc Cid) :
    (g.encode F).length = 65 := by
  cases g <;> simp [TrustedGetter.encode, hacc, hcid]

/-- Every call encoding starts with the variant byte and the signer's 32 bytes. -/
theorem TrustedCall.length_encode_ge (hacc : ∀ a, (F.account a).length = 32)
    (c : TrustedCall Acc Cid) : 33 ≤ (c.encode F).length := by
  cases c <;> simp [TrustedCall.encode, hacc]

/-- With 32-byte accounts, `mrenclave` and shards, a call payload has at least 101 bytes. -/
theorem length_signedPayload_ge {C : Codec Acc Cid} (hC : C.Derives F)
    (hacc : ∀ a, (F.account a).length = 32) (hcid : ∀ c, (F.cid c).length = 32)
    (c : TrustedCall Acc Cid) (n : Nat) {m : Bytes} (hm : m.length = 32) (s : Cid) :
    101 ≤ (signedPayload C c n m s).length := by
  have hcall := TrustedCall.length_encode_ge hacc c
  have hnonce : (encodeU32 n).length = 4 := rfl
  simp only [signedPayload, hC.call, hC.cid, List.length_append, hnonce, hm, hcid]
  omega

end Parse

/-- **Signed payloads are injective, and separated at 32-byte widths.**  With injective,
    prefix-free field codes, equal call payloads have equal calls, `u32` nonces, 32-byte
    `mrenclave`s and shards.  With 32-byte accounts and currency identifiers (as
    `AccountId32` and `H256` are), a getter's encoding is never a call payload. -/
theorem signed_payloads_separated (F : FieldCodec Acc Cid) (hF : F.Sound) (C : Codec Acc Cid)
    (hC : C.Derives F) :
    (∀ (c c' : TrustedCall Acc Cid) (n n' : Nat) (m m' : Bytes) (s s' : Cid),
      c.FitsCompact → c'.FitsCompact → n < 2 ^ 32 → n' < 2 ^ 32 → m.length = 32 →
      m'.length = 32 → signedPayload C c n m s = signedPayload C c' n' m' s' →
      c = c' ∧ n = n' ∧ m = m' ∧ s = s') ∧
    ((∀ a, (F.account a).length = 32) → (∀ cid, (F.cid cid).length = 32) →
      ∀ (g : TrustedGetter Acc Cid) (c : TrustedCall Acc Cid) (n : Nat) (m : Bytes) (s : Cid),
        m.length = 32 → C.encodeGetter g ≠ signedPayload C c n m s) := by
  refine ⟨fun c c' n n' m m' s s' hc hc' hn hn' hm hm' heq =>
    signedPayload_inj hF hC hc hc' hn hn' hm hm' heq, ?_⟩
  intro hacc hcid g c n m s hm heq
  -- a getter has 65 bytes, a call payload at least 101
  have hgetter := TrustedGetter.length_encode hacc hcid g
  have hpayload := length_signedPayload_ge hC hacc hcid c n hm s
  rw [← hC.getter, heq] at hgetter
  omega

/-! ## §3. Field codes that meet the assumptions. -/

section Codes

/-- Bytes are countable, through `Fin 256`. -/
instance encodableUInt8 : Encodable UInt8 := Encodable.ofEquiv (Fin (FinEnum.card UInt8)) FinEnum.equiv

/-- A self-delimiting code for any countable type: the unary code of its number. -/
def countableCode {α : Type} [Encodable α] (a : α) : Bytes := unaryCode 1 0 (Encodable.encode a)

theorem countableCode_selfDelimiting {α : Type} [Encodable α] :
    SelfDelimiting (countableCode (α := α)) :=
  (unaryCode_selfDelimiting (by decide)).comap Encodable.encode_injective

/-- The fields of a `ProofOfAttendance`, in order. -/
def ProofOfAttendance.fields (p : ProofOfAttendance Acc Cid) : Acc × Nat × Cid × Acc × Bytes :=
  (p.proverPublic, p.ceremonyIndex, p.currencyIdentifier, p.attendeePublic,
    p.attendeeSignature)

/-- The fields of an `Attestation`, the claim's first. -/
def Attestation.fields (a : Attestation Acc Cid) :
    (Acc × Nat × Cid × Nat × (Int × Int) × Nat × Nat) × Bytes × Acc :=
  ((a.claim.claimantPublic, a.claim.ceremonyIndex, a.claim.currencyIdentifier,
    a.claim.meetupIndex, a.claim.location, a.claim.timestamp,
    a.claim.numberOfParticipantsConfirmed), a.signature, a.public_)

theorem ProofOfAttendance.fields_injective :
    Function.Injective (@ProofOfAttendance.fields Acc Cid) := by
  rintro ⟨_, _, _, _, _⟩ ⟨_, _, _, _, _⟩ h
  simp only [ProofOfAttendance.fields, Prod.mk.injEq] at h
  obtain ⟨rfl, rfl, rfl, rfl, rfl⟩ := h
  rfl

theorem Attestation.fields_injective :
    Function.Injective (@Attestation.fields Acc Cid) := by
  rintro ⟨⟨_, _, _, _, _, _, _⟩, _, _⟩ ⟨⟨_, _, _, _, _, _, _⟩, _, _⟩ h
  simp only [Attestation.fields, Prod.mk.injEq] at h
  obtain ⟨⟨rfl, rfl, rfl, rfl, rfl, rfl, rfl⟩, rfl, rfl⟩ := h
  rfl

variable [Encodable Acc] [Encodable Cid]

/-- Field codes from given account and currency codes, the other fields countable. -/
def countableFields (account : Acc → Bytes) (cid : Cid → Bytes) : FieldCodec Acc Cid where
  account := account
  cid := cid
  balance := countableCode
  proofOfAttendance := countableCode ∘ ProofOfAttendance.fields
  attestation := countableCode ∘ Attestation.fields

theorem countableFields_sound {account : Acc → Bytes} {cid : Cid → Bytes}
    (haccount : SelfDelimiting account) (hcid : SelfDelimiting cid) :
    (countableFields account cid).Sound where
  account := haccount
  cid := hcid
  balance := countableCode_selfDelimiting
  proofOfAttendance := countableCode_selfDelimiting.comap ProofOfAttendance.fields_injective
  attestation := countableCode_selfDelimiting.comap Attestation.fields_injective

/-- The codec whose encoders are derived from `F`; its hashers and signatures play no part
    in a payload. -/
def derivedCodec (F : FieldCodec Acc Cid) : Codec Acc Cid where
  encodeAccount := F.account
  encodeCid := F.cid
  encodeCall := TrustedCall.encode F
  encodeGetter := TrustedGetter.encode F
  twox64 := id
  twox128 := id
  twox256 := id
  blake2_128 := id
  blake2_256 := id
  verify _ _ _ := false

omit [Encodable Acc] [Encodable Cid] in
theorem derivedCodec_derives (F : FieldCodec Acc Cid) : (derivedCodec F).Derives F :=
  ⟨rfl, rfl, rfl⟩

end Codes

/-! ## §4. Witnesses. -/

/-- Accounts and currencies with a single value each, encoded as 32 zero bytes. -/
def wideFields : FieldCodec Unit Unit :=
  countableFields (fun _ => List.replicate 32 0) (fun _ => List.replicate 32 0)

theorem wideFields_sound : wideFields.Sound := by
  have hwide : SelfDelimiting fun _ : Unit => (List.replicate 32 0 : Bytes) :=
    SelfDelimiting.of_length (n := 32) (fun _ => List.length_replicate) (fun _ _ _ => rfl)
  exact countableFields_sound hwide hwide

/-- At 32-byte widths both halves apply, and a `balance_transfer`'s payload fixes its
    nonce. -/
theorem payloads_separated_wide :
    wideFields.Sound ∧
    (signedPayload (derivedCodec wideFields) (.balanceTransfer () () () 5) 1
        (List.replicate 32 0) () =
      signedPayload (derivedCodec wideFields) (.balanceTransfer () () () 5) 2
        (List.replicate 32 0) () → (1 : Nat) = 2) ∧
    TrustedGetter.encode wideFields (.balance () ()) ≠
      signedPayload (derivedCodec wideFields) (.balanceTransfer () () () 5) 1
        (List.replicate 32 0) () := by
  have hsep := signed_payloads_separated wideFields wideFields_sound (derivedCodec wideFields)
    (derivedCodec_derives wideFields)
  have hzeros : (List.replicate 32 0 : Bytes).length = 32 := List.length_replicate
  refine ⟨wideFields_sound, fun heq => ?_, ?_⟩
  · exact (hsep.1 (.balanceTransfer () () () 5) (.balanceTransfer () () () 5) 1 2
      (List.replicate 32 0) (List.replicate 32 0) () () trivial trivial (by decide) (by decide)
      hzeros hzeros heq).2.1
  · exact hsep.2 (fun _ => List.length_replicate) (fun _ => List.length_replicate)
      (.balance () ()) (.balanceTransfer () () () 5) 1 (List.replicate 32 0) () hzeros

end EncointerWorker.Stf
