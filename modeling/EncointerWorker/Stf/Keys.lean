import Mathlib.Data.FinEnum
import Mathlib.Data.Fintype.BigOperators
import Mathlib.Data.Fintype.Pigeonhole
import EncointerWorker.Lib.Code
import EncointerWorker.Stf.Sgx

/-!
  EncointerWorker.Stf.Keys — the storage keys the enclave requests and writes
  (`key_hash`, `storage_map_key`, `storage_double_map_key` in `stf/src/sgx.rs`), against
  Substrate's definition of its storage hashers.

  A map key is the hashed module and storage prefixes, then each key hashed by its
  `StorageHasher`.  A TRANSPARENT hasher keeps the encoded key in the hash (`Identity`,
  `Blake2_128Concat`, `Twox64Concat`), so the key can be read back from the storage key.
  The source's `Twox64Concat` arm returns `twox_64(e)` alone: the key is lost, and with
  an 8-byte `twox_64` two keys of nine bytes or more share a storage key.

  Main results:
    * `keyHash_eq_substrateKeyHash` — every other hasher agrees with Substrate's.
    * `twox64Concat_key_collides` — the source's `Twox64Concat` is not Substrate's, and its
      storage keys collide.
    * `scheduleKey_not_mem_perShard`, `scheduleKey_not_mem_call`, `scheduleKey_ne_numberKey` —
      with a `twox_128` that tells the pallet and item names apart, the scheduler's keys are
      none of the keys synced per shard or per call, nor the block number's.
-/

namespace EncointerWorker.Stf

open EncointerWorker.Lib

variable {Acc Cid : Type} (C : Codec Acc Cid)

/-! ## §1. Substrate's hashers. -/

/-- Substrate's `StorageHasher`s (`frame_support::Hashable`): the specification `key_hash`
    copies. -/
def substrateKeyHash (encodedKey : Bytes) : StorageHasher → Bytes
  | .identity => encodedKey
  | .blake2_128 => C.blake2_128 encodedKey
  | .blake2_128Concat => C.blake2_128 encodedKey ++ encodedKey
  | .blake2_256 => C.blake2_256 encodedKey
  | .twox128 => C.twox128 encodedKey
  | .twox256 => C.twox256 encodedKey
  | .twox64Concat => C.twox64 encodedKey ++ encodedKey

theorem keyHash_eq_substrateKeyHash (encodedKey : Bytes) {hasher : StorageHasher}
    (hne : hasher ≠ .twox64Concat) :
    keyHash C encodedKey hasher = substrateKeyHash C encodedKey hasher := by
  cases hasher <;> first | rfl | exact absurd rfl hne

/-- The source's `Twox64Concat` agrees with Substrate's only on the empty encoding. -/
theorem keyHash_twox64Concat_eq_iff (encodedKey : Bytes) :
    keyHash C encodedKey .twox64Concat = substrateKeyHash C encodedKey .twox64Concat ↔
      encodedKey = [] := by
  show C.twox64 encodedKey = C.twox64 encodedKey ++ encodedKey ↔ encodedKey = []
  constructor
  · intro h
    exact List.append_right_eq_self.mp h.symm
  · rintro rfl
    rw [List.append_nil]

/-! ## §2. `Twox64Concat`. -/

/-- An 8-byte hash of 9-byte keys has a collision. -/
theorem twox64_collision (h8 : ∀ x, (C.twox64 x).length = 8) :
    ∃ e e' : Bytes, e.length = 9 ∧ e'.length = 9 ∧ e ≠ e' ∧ C.twox64 e = C.twox64 e' := by
  let hash9 : List.Vector UInt8 9 → List.Vector UInt8 8 := fun v => ⟨C.twox64 v.1, h8 v.1⟩
  -- `256 ^ 8` hashes for `256 ^ 9` keys
  have hcard : Fintype.card (List.Vector UInt8 8) < Fintype.card (List.Vector UInt8 9) := by
    rw [card_vector, card_vector, ← FinEnum.card_eq_fintypeCard]
    exact Nat.pow_lt_pow_right (by decide) (by decide)
  obtain ⟨v, w, hne, hhash⟩ := Fintype.exists_ne_map_eq_of_card_lt hash9 hcard
  exact ⟨v.1, w.1, v.2, w.2, fun h => hne (Subtype.ext h), congrArg Subtype.val hhash⟩

/-- **`key_hash` drops the key under `Twox64Concat`.**  Every other hasher computes
    Substrate's hash; `Twox64Concat` agrees with Substrate's `twox_64(e) ++ e` only on the
    empty encoding; and with an 8-byte `twox_64` two different 9-byte keys (of a map keyed by
    `[u8; 9]`, say) share their storage key. -/
theorem twox64Concat_key_collides (m s : String) :
    (∀ (e : Bytes) (hasher : StorageHasher), hasher ≠ .twox64Concat →
      keyHash C e hasher = substrateKeyHash C e hasher) ∧
    (∀ e : Bytes, keyHash C e .twox64Concat = substrateKeyHash C e .twox64Concat ↔ e = []) ∧
    ((∀ x, (C.twox64 x).length = 8) →
      ∃ e e' : Bytes, e.length = 9 ∧ e'.length = 9 ∧ e ≠ e' ∧
        storageMapKey C m s e .twox64Concat = storageMapKey C m s e' .twox64Concat) := by
  refine ⟨fun e _ hne => keyHash_eq_substrateKeyHash C e hne,
    keyHash_twox64Concat_eq_iff C, fun h8 => ?_⟩
  obtain ⟨e, e', he, he', hne, hhash⟩ := twox64_collision C h8
  refine ⟨e, e', he, he', hne, ?_⟩
  show storageValueKey C m s ++ C.twox64 e = storageValueKey C m s ++ C.twox64 e'
  rw [hhash]

/-! ## §3. The scheduler's keys. -/

section Schedule

/-- The scheduler's `CurrentPhase` and `CurrentCeremonyIndex`: the schedule that the phase
    guards of `Stf::execute` and the ceremony pallets read. -/
def scheduleKeys : List Bytes :=
  [currentPhaseKey C, storageValueKey C "EncointerScheduler" "CurrentCeremonyIndex"]

/-- `twox_128` is sixteen bytes wide and tells apart the scheduler pallet from the other
    pallets the enclave syncs, and the schedule's items from `CeremonyMaster` (true of the
    real hash on these names). -/
structure PrefixesApart : Prop where
  width : ∀ x, (C.twox128 x).length = 16
  scheduler_currencies :
    C.twox128 "EncointerScheduler".toUTF8.toList ≠ C.twox128 "EncointerCurrencies".toUTF8.toList
  scheduler_system : C.twox128 "EncointerScheduler".toUTF8.toList ≠ C.twox128 "System".toUTF8.toList
  currentPhase_ceremonyMaster :
    C.twox128 "CurrentPhase".toUTF8.toList ≠ C.twox128 "CeremonyMaster".toUTF8.toList
  currentCeremonyIndex_ceremonyMaster :
    C.twox128 "CurrentCeremonyIndex".toUTF8.toList ≠ C.twox128 "CeremonyMaster".toUTF8.toList

variable {C}

/-- With a 16-byte `twox_128`, a storage key starts with the hashes of its pallet and item. -/
theorem twox128_eq_of_storageValueKey_append (hw : ∀ x, (C.twox128 x).length = 16)
    {m s m' s' : String} {x y : Bytes}
    (h : storageValueKey C m s ++ x = storageValueKey C m' s' ++ y) :
    C.twox128 m.toUTF8.toList = C.twox128 m'.toUTF8.toList ∧
      C.twox128 s.toUTF8.toList = C.twox128 s'.toUTF8.toList ∧ x = y := by
  simp only [storageValueKey, List.append_assoc] at h
  obtain ⟨hm, hrest⟩ := List.append_inj h (by rw [hw, hw])
  obtain ⟨hs, hxy⟩ := List.append_inj hrest (by rw [hw, hw])
  exact ⟨hm, hs, hxy⟩

/-- Both schedule keys are value keys of the scheduler pallet. -/
theorem exists_item_of_mem_scheduleKeys {k : Bytes} (hk : k ∈ scheduleKeys C) :
    ∃ item, (item = "CurrentPhase" ∨ item = "CurrentCeremonyIndex") ∧
      k = storageValueKey C "EncointerScheduler" item := by
  simp only [scheduleKeys, currentPhaseKey, List.mem_cons, List.not_mem_nil, or_false] at hk
  rcases hk with rfl | rfl
  · exact ⟨_, .inl rfl, rfl⟩
  · exact ⟨_, .inr rfl, rfl⟩

variable (hp : PrefixesApart C)
include hp

/-- A schedule key is no key of another pallet. -/
theorem scheduleKey_ne_of_pallet {k : Bytes} (hk : k ∈ scheduleKeys C) {m s : String}
    (hm : C.twox128 m.toUTF8.toList ≠ C.twox128 "EncointerScheduler".toUTF8.toList) (x : Bytes) :
    k ≠ storageValueKey C m s ++ x := by
  obtain ⟨item, -, rfl⟩ := exists_item_of_mem_scheduleKeys hk
  intro heq
  rw [← List.append_nil (storageValueKey C "EncointerScheduler" item)] at heq
  exact hm (twox128_eq_of_storageValueKey_append hp.width heq).1.symm

theorem scheduleKey_ne_valueKey {k : Bytes} (hk : k ∈ scheduleKeys C) {m s : String}
    (hm : C.twox128 m.toUTF8.toList ≠ C.twox128 "EncointerScheduler".toUTF8.toList) :
    k ≠ storageValueKey C m s := by
  rw [← List.append_nil (storageValueKey C m s)]
  exact scheduleKey_ne_of_pallet hp hk hm []

theorem scheduleKey_ne_ceremonyMasterKey {k : Bytes} (hk : k ∈ scheduleKeys C) :
    k ≠ ceremonyMasterKey C := by
  obtain ⟨item, hitem, rfl⟩ := exists_item_of_mem_scheduleKeys hk
  intro heq
  have hsplit := twox128_eq_of_storageValueKey_append hp.width (x := []) (y := [])
    (by simpa [ceremonyMasterKey] using heq)
  rcases hitem with rfl | rfl
  · exact hp.currentPhase_ceremonyMaster hsplit.2.1
  · exact hp.currentCeremonyIndex_ceremonyMaster hsplit.2.1

/-- **The schedule is not synced per shard**: the per-shard keys are `EncointerCurrencies`
    keys. -/
theorem scheduleKey_not_mem_perShard (shard : Cid) {k : Bytes} (hk : k ∈ scheduleKeys C) :
    k ∉ storageHashesToUpdatePerShard C shard := by
  have hcur := Ne.symm hp.scheduler_currencies
  simp only [storageHashesToUpdatePerShard, List.mem_cons, List.not_mem_nil, or_false, not_or]
  exact ⟨scheduleKey_ne_of_pallet hp hk hcur _, scheduleKey_ne_of_pallet hp hk hcur _⟩

/-- **The schedule is not synced per call**: a call syncs a `System` account, the currency
    list or the ceremony master. -/
theorem scheduleKey_not_mem_call (call : TrustedCallSigned Acc Cid) {k : Bytes}
    (hk : k ∈ scheduleKeys C) : k ∉ getStorageHashesToUpdate C call := by
  unfold getStorageHashesToUpdate
  cases call.call with
  | balanceTransfer account _ _ _ =>
    simpa [nonceKeyHash, storageMapKey] using
      scheduleKey_ne_of_pallet hp hk (Ne.symm hp.scheduler_system) _
  | ceremoniesRegisterParticipant =>
    simpa using scheduleKey_ne_valueKey hp hk (Ne.symm hp.scheduler_currencies)
  | ceremoniesRegisterAttestations =>
    simpa using scheduleKey_ne_valueKey hp hk (Ne.symm hp.scheduler_currencies)
  | ceremoniesGrantReputation => simpa using scheduleKey_ne_ceremonyMasterKey hp hk

theorem scheduleKey_ne_numberKey {k : Bytes} (hk : k ∈ scheduleKeys C) :
    k ≠ storageValueKey C "System" "Number" :=
  scheduleKey_ne_valueKey hp hk (Ne.symm hp.scheduler_system)

end Schedule

end EncointerWorker.Stf
