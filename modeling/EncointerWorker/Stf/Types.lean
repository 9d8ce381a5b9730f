import EncointerWorker.Lib.AssocMap
import EncointerWorker.Relay.Types

/-!
  EncointerWorker.Stf.Types — the data model of the trusted state transition function
  (`stf/src/lib.rs`, the types and storage keys of `stf/src/sgx.rs`).

  Accounts are a type `Acc` (an sr25519 public key) and currency identifiers a type `Cid`
  (`H256`, the same type as `ShardIdentifier`: the enclave compares and mixes the two).
  Balances (`I64F64`) and locations are `Int`; SCALE encodings and the Twox/Blake2 hashers
  are the parameter record `Codec`.

  The STF state (`SgxExternalities`, a `HashMap<Vec<u8>, Vec<u8>>`) is an association map
  of `Lib.AssocMap`; so is the update map `HashMap<Vec<u8>, Option<Vec<u8>>>` the enclave
  builds from the host's storage responses.
-/

namespace EncointerWorker.Stf

open EncointerWorker.Lib.AssocMap

/-! ## §1. Trusted calls and getters. -/

/-- `encointer_scheduler::CeremonyPhaseType`. -/
inductive CeremonyPhaseType where
  | registering
  | assigning
  | attesting
  deriving DecidableEq, Repr

/-- SCALE decoding of a `CeremonyPhaseType`: the variant index in the first byte. -/
def CeremonyPhaseType.decode : Bytes → Option CeremonyPhaseType
  | 0 :: _ => some .registering
  | 1 :: _ => some .assigning
  | 2 :: _ => some .attesting
  | _ => none

/-- `encointer_ceremonies::ProofOfAttendance`. -/
structure ProofOfAttendance (Acc Cid : Type) where
  proverPublic : Acc
  ceremonyIndex : Nat
  currencyIdentifier : Cid
  attendeePublic : Acc
  attendeeSignature : Bytes
  deriving DecidableEq, Repr

/-- `encointer_ceremonies::ClaimOfAttendance` (location coordinates as `Int`). -/
structure ClaimOfAttendance (Acc Cid : Type) where
  claimantPublic : Acc
  ceremonyIndex : Nat
  currencyIdentifier : Cid
  meetupIndex : Nat
  location : Int × Int
  timestamp : Nat
  numberOfParticipantsConfirmed : Nat
  deriving DecidableEq, Repr

/-- `encointer_ceremonies::Attestation`. -/
structure Attestation (Acc Cid : Type) where
  claim : ClaimOfAttendance Acc Cid
  signature : Bytes
  public_ : Acc
  deriving DecidableEq, Repr

/-- `TrustedCall`. -/
inductive TrustedCall (Acc Cid : Type) where
  | balanceTransfer (from_ to_ : Acc) (cid : Cid) (value : Int)
  | ceremoniesRegisterParticipant (from_ : Acc) (cid : Cid)
      (proof : Option (ProofOfAttendance Acc Cid))
  | ceremoniesRegisterAttestations (from_ : Acc) (attestations : List (Attestation Acc Cid))
  | ceremoniesGrantReputation (ceremonyMaster : Acc) (cid : Cid) (reputable : Acc)
  deriving DecidableEq, Repr

/-- `TrustedCall::account`: the signer. -/
def TrustedCall.account {Acc Cid : Type} : TrustedCall Acc Cid → Acc
  | .balanceTransfer account _ _ _ => account
  | .ceremoniesRegisterParticipant account _ _ => account
  | .ceremoniesRegisterAttestations account _ => account
  | .ceremoniesGrantReputation account _ _ => account

/-- The currencies a call acts on: the `cid` of three variants and the claim's currency of
    every attestation (a specification notion; the source has no such function). -/
def TrustedCall.currencies {Acc Cid : Type} : TrustedCall Acc Cid → List Cid
  | .balanceTransfer _ _ cid _ => [cid]
  | .ceremoniesRegisterParticipant _ cid _ => [cid]
  | .ceremoniesRegisterAttestations _ attestations =>
    attestations.map fun a => a.claim.currencyIdentifier
  | .ceremoniesGrantReputation _ cid _ => [cid]

/-- `TrustedCallSigned`: the call, its nonce and the signature over both. -/
structure TrustedCallSigned (Acc Cid : Type) where
  call : TrustedCall Acc Cid
  nonce : Nat
  signature : Bytes
  deriving DecidableEq, Repr

/-- `TrustedGetter`. -/
inductive TrustedGetter (Acc Cid : Type) where
  | balance (who : Acc) (cid : Cid)
  | participantIndex (who : Acc) (cid : Cid)
  | meetupIndex (who : Acc) (cid : Cid)
  | attestations (who : Acc) (cid : Cid)
  | meetupRegistry (who : Acc) (cid : Cid)
  deriving DecidableEq, Repr

/-- `TrustedGetter::account`. -/
def TrustedGetter.account {Acc Cid : Type} : TrustedGetter Acc Cid → Acc
  | .balance account _ => account
  | .participantIndex account _ => account
  | .meetupIndex account _ => account
  | .attestations account _ => account
  | .meetupRegistry account _ => account

/-- `TrustedGetterSigned`. -/
structure TrustedGetterSigned (Acc Cid : Type) where
  getter : TrustedGetter Acc Cid
  signature : Bytes
  deriving DecidableEq, Repr

/-- `PublicGetter`. -/
inductive PublicGetter (Cid : Type) where
  | totalIssuance (cid : Cid)
  | participantCount (cid : Cid)
  | meetupCount (cid : Cid)
  | ceremonyReward (cid : Cid)
  | locationTolerance (cid : Cid)
  | timeTolerance (cid : Cid)
  | schedulerState (cid : Cid)
  deriving DecidableEq, Repr

/-- `Getter`. -/
inductive Getter (Acc Cid : Type) where
  | public_ (getter : PublicGetter Cid)
  | trusted (getter : TrustedGetterSigned Acc Cid)
  deriving DecidableEq, Repr

/-- `StfError`. -/
inductive StfError (Acc : Type) where
  | missingPrivileges (account : Acc)
  | dispatch (message : String)
  | missingFunds
  | inexistentAccount (account : Acc)
  deriving DecidableEq, Repr

/-! ## §2. Encodings, hashers and signatures. -/

/-- The SCALE encoders, storage hashers and the signature check the STF relies on. -/
structure Codec (Acc Cid : Type) where
  encodeAccount : Acc → Bytes
  encodeCid : Cid → Bytes
  encodeCall : TrustedCall Acc Cid → Bytes
  encodeGetter : TrustedGetter Acc Cid → Bytes
  twox64 : Bytes → Bytes
  twox128 : Bytes → Bytes
  twox256 : Bytes → Bytes
  blake2_128 : Bytes → Bytes
  blake2_256 : Bytes → Bytes
  /-- `AnySignature::verify(payload, signer)`. -/
  verify : Bytes → Bytes → Acc → Bool

/-- SCALE encoding of a `u32`: four bytes, little endian. -/
def encodeU32 (n : Nat) : Bytes :=
  [(n % 256).toUInt8, (n / 256 % 256).toUInt8, (n / 65536 % 256).toUInt8,
   (n / 16777216 % 256).toUInt8]

/-- SCALE encoding of a `CeremonyPhaseType`. -/
def CeremonyPhaseType.encode : CeremonyPhaseType → Bytes
  | .registering => [0]
  | .assigning => [1]
  | .attesting => [2]

theorem CeremonyPhaseType.decode_encode (p : CeremonyPhaseType) : decode p.encode = some p := by
  cases p <;> rfl

section Signatures

variable {Acc Cid : Type} (C : Codec Acc Cid)

/-- The payload a `TrustedCallSigned` signs: call, nonce, `mrenclave`, shard. -/
def signedPayload (call : TrustedCall Acc Cid) (nonce : Nat) (mrenclave : Bytes) (shard : Cid) :
    Bytes :=
  C.encodeCall call ++ encodeU32 nonce ++ mrenclave ++ C.encodeCid shard

/-- `TrustedCallSigned::verify_signature(mrenclave, shard)`. -/
def TrustedCallSigned.verifySignature (t : TrustedCallSigned Acc Cid) (mrenclave : Bytes)
    (shard : Cid) : Bool :=
  C.verify t.signature (signedPayload C t.call t.nonce mrenclave shard) t.call.account

/-- `TrustedGetterSigned::verify_signature`. -/
def TrustedGetterSigned.verifySignature (g : TrustedGetterSigned Acc Cid) : Bool :=
  C.verify g.signature (C.encodeGetter g.getter) g.getter.account

end Signatures

/-! ## §3. Storage keys. -/

/-- `metadata::StorageHasher`. -/
inductive StorageHasher where
  | identity
  | blake2_128
  | blake2_128Concat
  | blake2_256
  | twox128
  | twox256
  | twox64Concat
  deriving DecidableEq, Repr

section Keys

variable {Acc Cid : Type} (C : Codec Acc Cid)

/-- `key_hash`: the hashed map key (note the source's `Twox64Concat` does not concatenate). -/
def keyHash (encodedKey : Bytes) : StorageHasher → Bytes
  | .identity => encodedKey
  | .blake2_128 => C.blake2_128 encodedKey
  | .blake2_128Concat => C.blake2_128 encodedKey ++ encodedKey
  | .blake2_256 => C.blake2_256 encodedKey
  | .twox128 => C.twox128 encodedKey
  | .twox256 => C.twox256 encodedKey
  | .twox64Concat => C.twox64 encodedKey

/-- `storage_value_key(module_prefix, storage_prefix)`. -/
def storageValueKey (modulePrefix storagePrefix : String) : Bytes :=
  C.twox128 modulePrefix.toUTF8.toList ++ C.twox128 storagePrefix.toUTF8.toList

/-- `storage_map_key(module_prefix, storage_prefix, key, hasher)`, with the key encoded. -/
def storageMapKey (modulePrefix storagePrefix : String) (encodedKey : Bytes)
    (hasher : StorageHasher) : Bytes :=
  storageValueKey C modulePrefix storagePrefix ++ keyHash C encodedKey hasher

/-- `storage_double_map_key(module_prefix, storage_prefix, key1, hasher1, key2, hasher2)`. -/
def storageDoubleMapKey (modulePrefix storagePrefix : String) (encodedKey1 : Bytes)
    (hasher1 : StorageHasher) (encodedKey2 : Bytes) (hasher2 : StorageHasher) : Bytes :=
  storageValueKey C modulePrefix storagePrefix ++ keyHash C encodedKey1 hasher1 ++
    keyHash C encodedKey2 hasher2

/-- `bootstrapper_key_hash(cid)`. -/
def bootstrapperKeyHash (cid : Cid) : Bytes :=
  storageMapKey C "EncointerCurrencies" "Bootstrappers" (C.encodeCid cid) .blake2_128Concat

/-- `location_key_hash(cid)`. -/
def locationKeyHash (cid : Cid) : Bytes :=
  storageMapKey C "EncointerCurrencies" "Locations" (C.encodeCid cid) .blake2_128Concat

/-- `shards_key_hash()`: the registered currencies are the shards. -/
def shardsKeyHash : Bytes := storageValueKey C "EncointerCurrencies" "CurrencyIdentifiers"

/-- `nonce_key_hash(account)`: the `System::Account` entry holding the account's nonce. -/
def nonceKeyHash (account : Acc) : Bytes :=
  storageMapKey C "System" "Account" (C.encodeAccount account) .blake2_128Concat

/-- The key of `EncointerScheduler::CurrentPhase`. -/
def currentPhaseKey : Bytes := storageValueKey C "EncointerScheduler" "CurrentPhase"

/-- The key of `EncointerScheduler::CeremonyMaster`. -/
def ceremonyMasterKey : Bytes := storageValueKey C "EncointerScheduler" "CeremonyMaster"

end Keys

/-! ## §4. The state. -/

/-- `SgxExternalities`: the STF's key-value storage. -/
abbrev State := Map Bytes Bytes

/-- The update map `HashMap<Vec<u8>, Option<Vec<u8>>>`: `None` clears a key. -/
abbrev UpdateMap := Map Bytes (Option Bytes)

end EncointerWorker.Stf
