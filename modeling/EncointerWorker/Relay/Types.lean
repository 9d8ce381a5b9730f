import Mathlib.Data.List.Basic

/-!
  EncointerWorker.Relay.Types — the data model of the enclave's GRANDPA light client
  (`enclave/chain_relay/src/{lib,state,error}.rs`).

  The relay is generic in the block type; here it is generic in the hash type `H`
  (`H256`) and the authority id type `A` (an ed25519 key).  Block numbers, set ids and
  relay ids are `Nat`: the code's `u32`/`u64` never wrap on any run these results speak of.

  What the relay calls but this repository does not contain (Blake2 hashing, SCALE decoding,
  the Patricia trie, `finality-grandpa`'s commit validation) is the record `Substrate` of
  functions: every result below holds for ALL of them, unless a theorem names a hypothesis.
-/

namespace EncointerWorker

/-- `Vec<u8>`: SCALE bytes, storage keys and values, opaque extrinsics, justifications. -/
abbrev Bytes := List UInt8

end EncointerWorker

namespace EncointerWorker.Relay

/-! ## §1. Headers and their digests. -/

/-- `ConsensusEngineId` of GRANDPA, `*b"FRNK"`. -/
def GRANDPA_ENGINE_ID : Bytes := [70, 82, 78, 75]

/-- The storage key `b":grandpa_authorities"` the authority set proof is read at. -/
def GRANDPA_AUTHORITIES_KEY : Bytes := ":grandpa_authorities".toUTF8.toList

/-- `sp_runtime::generic::DigestItem`.  `other` stands for the variants no relay function
    looks into (`Other`, `ChangesTrieRoot`, `ChangesTrieSignal`). -/
inductive DigestItem where
  | preRuntime (engine : Bytes) (data : Bytes)
  | consensus (engine : Bytes) (data : Bytes)
  | seal (engine : Bytes) (data : Bytes)
  | other (data : Bytes)
  deriving DecidableEq, Repr

/-- `HeaderG<u32, BlakeTwo256>`. -/
structure Header (H : Type) where
  parentHash : H
  number : Nat
  stateRoot : H
  extrinsicsRoot : H
  digest : List DigestItem
  deriving DecidableEq, Repr

/-- `BlockG<Header, OpaqueExtrinsic>`. -/
structure Block (H : Type) where
  header : Header H
  extrinsics : List Bytes
  deriving DecidableEq, Repr

/-- `SignedBlock<Block>`: a block and its optional GRANDPA justification. -/
structure SignedBlock (H : Type) where
  block : Block H
  justification : Option Bytes
  deriving DecidableEq, Repr

/-! ## §2. GRANDPA authority sets and their consensus logs. -/

/-- `AuthorityList`: authorities with their weights. -/
abbrev AuthorityList (A : Type) := List (A × Nat)

/-- `sp_finality_grandpa::ScheduledChange<N>`. -/
structure ScheduledChange (A : Type) where
  nextAuthorities : AuthorityList A
  delay : Nat
  deriving DecidableEq, Repr

/-- `sp_finality_grandpa::ConsensusLog<N>`. -/
inductive ConsensusLog (A : Type) where
  | scheduledChange (change : ScheduledChange A)
  | forcedChange (median : Nat) (change : ScheduledChange A)
  | onDisabled (index : Nat)
  | pause (delay : Nat)
  | resume (delay : Nat)
  deriving DecidableEq, Repr

/-- `ConsensusLog::try_into_change`: only a standard scheduled change is one. -/
def ConsensusLog.tryIntoChange {A : Type} : ConsensusLog A → Option (ScheduledChange A)
  | .scheduledChange change => some change
  | _ => none

/-- `StorageProof = Vec<Vec<u8>>`: the trie nodes of a proof. -/
abbrev StorageProof := List Bytes

/-- `chain_relay::error::Error`. -/
inductive Error where
  | storageRootMismatch
  | storageValueUnavailable
  | validatorSetMismatch
  | invalidAncestryProof
  | noSuchRelayExists
  | invalidFinalityProof
  | headerAncestryMismatch
  deriving DecidableEq, Repr

/-! ## §3. What the relay calls outside this repository. -/

/-- The Substrate and `finality-grandpa` functions the relay relies on. -/
structure Substrate (H A : Type) where
  /-- `Header::hash`: Blake2-256 of the SCALE-encoded header. -/
  hash : Header H → H
  /-- `BlakeTwo256::hash_of` an opaque extrinsic. -/
  hashOfExtrinsic : Bytes → H
  /-- `DigestItem::try_to::<ConsensusLog>`: SCALE decoding of a consensus item's payload. -/
  decodeConsensusLog : Bytes → Option (ConsensusLog A)
  /-- `StorageProofChecker::check_proof(root, key, proof)` (`new` then `read_value`): the
      trie value under `key`, or an error when the proof does not open to `root`. -/
  checkProof : H → Bytes → StorageProof → Except Error (Option Bytes)
  /-- `AuthorityList::encode`. -/
  encodeAuthorityList : AuthorityList A → Bytes
  /-- `VoterSet::new(..)` returns `Some`. -/
  voterSetNew : AuthorityList A → Bool
  /-- `GrandpaJustification::decode_and_verify_finalizes(j, (hash, number), set_id, voters)`
      returns `Ok`. -/
  verifyFinalizes : Bytes → H → Nat → Nat → AuthorityList A → Bool

/-! ## §4. The relay state. -/

/-- `ScheduledChangeAtBlock`: the next authority list and the block it is enacted at. -/
structure ScheduledChangeAtBlock (A : Type) where
  atBlock : Nat
  nextAuthorityList : AuthorityList A
  deriving DecidableEq, Repr

/-- `RelayState<Block>`. -/
structure RelayState (H A : Type) where
  lastFinalizedBlockHeader : Header H
  currentValidatorSet : AuthorityList A
  currentValidatorSetId : Nat
  headerHashes : List H
  /-- Finalized headers without grandpa proof. -/
  unjustifiedHeaders : List H
  /-- Transactions sent by the relay. -/
  verifyTxInclusion : List Bytes
  scheduledChange : Option (ScheduledChangeAtBlock A)
  deriving DecidableEq, Repr

/-- `RelayState::new`. -/
def RelayState.new {H A : Type} (hash : Header H → H) (blockHeader : Header H)
    (validatorSet : AuthorityList A) : RelayState H A where
  lastFinalizedBlockHeader := blockHeader
  currentValidatorSet := validatorSet
  currentValidatorSetId := 0
  headerHashes := [hash blockHeader]
  unjustifiedHeaders := []
  verifyTxInclusion := []
  scheduledChange := none

/-- `LightValidation`: the `BTreeMap` of tracked relays is a finite partial map, read by key. -/
structure LightValidation (H A : Type) where
  numRelays : Nat
  trackedRelays : Nat → Option (RelayState H A)

/-- `LightValidation::new()`, the derived `Default`. -/
def LightValidation.new {H A : Type} : LightValidation H A where
  numRelays := 0
  trackedRelays := fun _ => none

/-- `BTreeMap::insert` on the tracked relays (also what `get_mut` writes back). -/
def LightValidation.setRelay {H A : Type} (v : LightValidation H A) (relayId : Nat)
    (relay : RelayState H A) : LightValidation H A :=
  { v with trackedRelays := fun k => if k = relayId then some relay else v.trackedRelays k }

/-- What a `&mut self` method of the relay leaves behind: `none` when it panics, otherwise
    its `Result` together with the relay after the call (after an `Err` too: the Rust code
    mutates in place). -/
abbrev Call (H A α : Type) := Option (Except Error α × LightValidation H A)

section SetRelay

variable {H A : Type}

@[simp] theorem setRelay_numRelays (v : LightValidation H A) (i : Nat) (r : RelayState H A) :
    (v.setRelay i r).numRelays = v.numRelays := rfl

@[simp] theorem setRelay_same (v : LightValidation H A) (i : Nat) (r : RelayState H A) :
    (v.setRelay i r).trackedRelays i = some r := by
  simp [LightValidation.setRelay]

theorem setRelay_ne (v : LightValidation H A) {i k : Nat} (r : RelayState H A) (h : k ≠ i) :
    (v.setRelay i r).trackedRelays k = v.trackedRelays k := by
  simp [LightValidation.setRelay, h]

@[simp] theorem setRelay_setRelay (v : LightValidation H A) (i : Nat) (r r' : RelayState H A) :
    (v.setRelay i r).setRelay i r' = v.setRelay i r' := by
  simp only [LightValidation.setRelay, LightValidation.mk.injEq, true_and]
  funext k
  by_cases hk : k = i <;> simp [hk]

/-- Writing back the relay a light client already tracks changes nothing. -/
theorem setRelay_self {v : LightValidation H A} {i : Nat} {r : RelayState H A}
    (h : v.trackedRelays i = some r) : v.setRelay i r = v := by
  cases v with
  | mk numRelays trackedRelays =>
    simp only [LightValidation.setRelay, LightValidation.mk.injEq, true_and]
    funext k
    by_cases hk : k = i
    · rw [if_pos hk, hk, ← h]
    · rw [if_neg hk]

end SetRelay

end EncointerWorker.Relay
