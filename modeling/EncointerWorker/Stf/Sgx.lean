import EncointerWorker.Stf.Types

/-!
  EncointerWorker.Stf.Sgx — the trusted state transition function `Stf` (`stf/src/sgx.rs`).

  The encointer pallets the STF dispatches into are not part of this repository: they are the
  parameter record `Runtime`, one function per dispatched call (returning the state after it,
  or an error) and the phase-change hook.  A dispatch that fails leaves no trace here: the
  only caller, `handle_call_worker_xt`, drops the state when `execute` returns `Err`.

  Main results:
    * `execute_ok_iff` — `execute` succeeds exactly when the call's guard holds (phase, or
      ceremony master) and its dispatch succeeds; `execute_none_iff` — it panics exactly on
      `ensure_ceremony_master`'s `unwrap` of a missing `CeremonyMaster`.
    * `updateStorage_cases`, `get_setAll` — `update_storage` is the set/clear
      loop over the update map, followed, when `CurrentPhase` changes, by the phase hook.
-/

namespace EncointerWorker.Stf

open EncointerWorker.Lib.AssocMap

variable {Acc Cid : Type}

/-- The encointer runtime the STF dispatches into. -/
structure Runtime (Acc Cid : Type) where
  /-- `EncointerBalancesCall::transfer(to, cid, value).dispatch_bypass_filter(signed(from))`. -/
  transfer : Acc → Acc → Cid → Int → State → Except Unit State
  /-- `EncointerCeremoniesCall::register_participant(cid, proof)` from `from`. -/
  registerParticipant : Acc → Cid → Option (ProofOfAttendance Acc Cid) → State → Except Unit State
  /-- `EncointerCeremoniesCall::register_attestations(attestations)` from `from`. -/
  registerAttestations : Acc → List (Attestation Acc Cid) → State → Except Unit State
  /-- `EncointerCeremoniesCall::grant_reputation(cid, reputable)` from the ceremony master. -/
  grantReputation : Acc → Cid → Acc → State → Except Unit State
  /-- `encointer_ceremonies::Module::on_ceremony_phase_change(next_phase)`. -/
  onCeremonyPhaseChange : CeremonyPhaseType → State → State
  /-- The pallet reads behind `Stf::get_state`. -/
  getState : Getter Acc Cid → State → Option Bytes

/-- The runtime leaves the storage key `k` alone: no dispatch that succeeds writes it, and
    neither does the phase hook. -/
structure Runtime.Keeps (R : Runtime Acc Cid) (k : Bytes) : Prop where
  transfer : ∀ from_ to_ cid value ext ext', R.transfer from_ to_ cid value ext = .ok ext' →
    get ext' k = get ext k
  registerParticipant : ∀ from_ cid proof ext ext',
    R.registerParticipant from_ cid proof ext = .ok ext' → get ext' k = get ext k
  registerAttestations : ∀ from_ attestations ext ext',
    R.registerAttestations from_ attestations ext = .ok ext' → get ext' k = get ext k
  grantReputation : ∀ master cid reputable ext ext',
    R.grantReputation master cid reputable ext = .ok ext' → get ext' k = get ext k
  onCeremonyPhaseChange : ∀ phase ext, get (R.onCeremonyPhaseChange phase ext) k = get ext k

/-! ## §1. Storage encodings and the initial state. -/

/-- SCALE encoding of a `u64`: eight bytes, little endian. -/
def encodeU64 (n : Nat) : Bytes := encodeU32 (n % 4294967296) ++ encodeU32 (n / 4294967296)

/-- `ALICE_ENCODED`, the sudo key of a fresh state. -/
def ALICE_ENCODED : Bytes :=
  [212, 53, 147, 199, 21, 253, 211, 28, 97, 20, 26, 189, 4, 169, 159, 214, 130, 44, 133, 88, 133,
   76, 205, 227, 154, 86, 132, 231, 165, 109, 162, 125]

section Storage

variable (C : Codec Acc Cid)

/-- `Stf::init_state`: the ceremony parameters that are not synced from the chain. -/
def initState : State :=
  let ext : State := []
  -- `BalanceType::from_num(1)`: `I64F64` with the integer part `1`
  let ext := insert ext (storageValueKey C "EncointerCeremonies" "CeremonyReward")
    (encodeU64 0 ++ encodeU64 1)
  let ext := insert ext (storageValueKey C "EncointerCeremonies" "TimeTolerance") (encodeU64 600000)
  let ext := insert ext (storageValueKey C "EncointerCeremonies" "LocationTolerance") (encodeU32 1000)
  insert ext (storageValueKey C "Sudo" "Key") ALICE_ENCODED

/-- `encointer_scheduler::current_phase()`: the stored phase, `REGISTERING` by default. -/
def currentPhase (ext : State) : CeremonyPhaseType :=
  match get ext (currentPhaseKey C) with
  | some v => (CeremonyPhaseType.decode v).getD .registering
  | none => .registering

/-- The set/clear loop of `update_storage` over the update map. -/
def setAll (ext : State) (mapUpdate : UpdateMap) : State := applyAll mapUpdate ext

/-- `Stf::update_storage`: set or clear every key of the update map, then run the phase hook
    if the map brings a new, decodable `CurrentPhase`. -/
def updateStorage (R : Runtime Acc Cid) (ext : State) (mapUpdate : UpdateMap) : State :=
  let key := currentPhaseKey C
  let nextPhaseOpt := match get mapUpdate key with
    | some maybePhase => maybePhase
    | none => none
  let currPhaseOpt := get ext key
  let ext := setAll ext mapUpdate
  if nextPhaseOpt ≠ currPhaseOpt then
    match nextPhaseOpt with
    | some nextPhaseVec =>
      match CeremonyPhaseType.decode nextPhaseVec with
      | some nextPhase => R.onCeremonyPhaseChange nextPhase ext
      | none => ext
    | none => ext
  else ext

/-- `Stf::update_block_number`. -/
def updateBlockNumber (ext : State) (number : Nat) : State :=
  insert ext (storageValueKey C "System" "Number") (encodeU32 number)

end Storage

/-! ## §2. `Stf::execute`. -/

section Execute

variable (C : Codec Acc Cid) (R : Runtime Acc Cid)

/-- `Stf::ensure_ceremony_master`; `none` is the panic of `unwrap` on a missing
    `CeremonyMaster`. -/
def ensureCeremonyMaster (ext : State) (account : Acc) : Option (Except (StfError Acc) Unit) :=
  match get ext (ceremonyMasterKey C) with
  | none => none
  | some master =>
    if master = C.encodeAccount account then some (.ok ()) else some (.error (.missingPrivileges account))

/-- `Stf::execute`: dispatch the call into the runtime (`none` is a panic). -/
def execute (ext : State) (call : TrustedCallSigned Acc Cid) :
    Option (Except (StfError Acc) State) :=
  match call.call with
  | .balanceTransfer from_ to_ cid value =>
    some ((R.transfer from_ to_ cid value ext).mapError fun _ => .dispatch "balance_transfer")
  | .ceremoniesRegisterParticipant from_ cid proof =>
    if currentPhase C ext ≠ .registering then
      some (.error (.dispatch
        "registering participants can only be done during REGISTERING phase"))
    else
      some ((R.registerParticipant from_ cid proof ext).mapError
        fun _ => .dispatch "ceremonies_register_participant failed")
  | .ceremoniesRegisterAttestations from_ attestations =>
    if currentPhase C ext ≠ .attesting then
      some (.error (.dispatch
        "registering attestations can only be done during ATTESTING phase"))
    else
      some ((R.registerAttestations from_ attestations ext).mapError
        fun _ => .dispatch "ceremonies_register_attestations")
  | .ceremoniesGrantReputation ceremonyMaster cid reputable =>
    match ensureCeremonyMaster C ext ceremonyMaster with
    | none => none
    | some (.error e) => some (.error e)
    | some (.ok ()) =>
      some ((R.grantReputation ceremonyMaster cid reputable ext).mapError
        fun _ => .dispatch "ceremonies_grant_reputation")

/-- What a successful `execute` did: the call's guard held and its dispatch returned `ext'`. -/
def Dispatched (ext : State) : TrustedCall Acc Cid → State → Prop
  | .balanceTransfer from_ to_ cid value, ext' => R.transfer from_ to_ cid value ext = .ok ext'
  | .ceremoniesRegisterParticipant from_ cid proof, ext' =>
    currentPhase C ext = .registering ∧ R.registerParticipant from_ cid proof ext = .ok ext'
  | .ceremoniesRegisterAttestations from_ attestations, ext' =>
    currentPhase C ext = .attesting ∧ R.registerAttestations from_ attestations ext = .ok ext'
  | .ceremoniesGrantReputation ceremonyMaster cid reputable, ext' =>
    get ext (ceremonyMasterKey C) = some (C.encodeAccount ceremonyMaster) ∧
      R.grantReputation ceremonyMaster cid reputable ext = .ok ext'

/-- `(x.mapError f) = .ok b` exactly when `x = .ok b`. -/
theorem mapError_eq_ok {ε ε' α : Type} (x : Except ε α) (f : ε → ε') (b : α) :
    x.mapError f = .ok b ↔ x = .ok b := by
  cases x <;> simp [Except.mapError]

/-- **The spec of `execute`'s success.** -/
theorem execute_ok_iff (ext ext' : State) (t : TrustedCallSigned Acc Cid) :
    execute C R ext t = some (.ok ext') ↔ Dispatched C R ext t.call ext' := by
  unfold execute
  cases t.call with
  | balanceTransfer from_ to_ cid value =>
    simp only [Dispatched, Option.some.injEq, mapError_eq_ok]
  | ceremoniesRegisterParticipant from_ cid proof =>
    simp only [Dispatched]
    by_cases hphase : currentPhase C ext = .registering
    · simp [hphase, mapError_eq_ok]
    · simp [hphase]
  | ceremoniesRegisterAttestations from_ attestations =>
    simp only [Dispatched]
    by_cases hphase : currentPhase C ext = .attesting
    · simp [hphase, mapError_eq_ok]
    · simp [hphase]
  | ceremoniesGrantReputation ceremonyMaster cid reputable =>
    simp only [Dispatched, ensureCeremonyMaster]
    -- the three outcomes of `ensure_ceremony_master`
    cases hmaster : get ext (ceremonyMasterKey C) with
    | none => simp
    | some master =>
      by_cases hacc : master = C.encodeAccount ceremonyMaster
      · simp [hacc, mapError_eq_ok]
      · simp [hacc]

/-- `execute` panics only on `ensure_ceremony_master`'s missing `CeremonyMaster`. -/
theorem execute_none_iff (ext : State) (t : TrustedCallSigned Acc Cid) :
    execute C R ext t = none ↔
      (∃ master cid reputable, t.call = .ceremoniesGrantReputation master cid reputable) ∧
        get ext (ceremonyMasterKey C) = none := by
  unfold execute
  cases t.call with
  | balanceTransfer => simp
  | ceremoniesRegisterParticipant =>
    simp only [reduceCtorEq, exists_false, false_and, iff_false]
    split <;> simp
  | ceremoniesRegisterAttestations =>
    simp only [reduceCtorEq, exists_false, false_and, iff_false]
    split <;> simp
  | ceremoniesGrantReputation master cid reputable =>
    simp only [ensureCeremonyMaster, TrustedCall.ceremoniesGrantReputation.injEq,
      exists_and_left, exists_eq', and_true, true_and]
    cases hm : get ext (ceremonyMasterKey C) with
    | none => simp
    | some m => by_cases hacc : m = C.encodeAccount master <;> simp [hacc]

/-- A key the runtime leaves alone is the same after a successful `execute`. -/
theorem execute_keeps {k : Bytes} (hk : R.Keeps k) {ext ext' : State}
    {t : TrustedCallSigned Acc Cid} (h : execute C R ext t = some (.ok ext')) :
    get ext' k = get ext k := by
  rw [execute_ok_iff] at h
  -- the dispatch of each call, past its guard
  cases hcall : t.call with
  | balanceTransfer from_ to_ cid value =>
    rw [hcall] at h
    exact hk.transfer _ _ _ _ _ _ h
  | ceremoniesRegisterParticipant from_ cid proof =>
    rw [hcall] at h
    exact hk.registerParticipant _ _ _ _ _ h.2
  | ceremoniesRegisterAttestations from_ attestations =>
    rw [hcall] at h
    exact hk.registerAttestations _ _ _ _ h.2
  | ceremoniesGrantReputation master cid reputable =>
    rw [hcall] at h
    exact hk.grantReputation _ _ _ _ _ h.2

end Execute

/-! ## §3. `update_storage`. -/

section Update

variable (C : Codec Acc Cid) (R : Runtime Acc Cid)

/-- `update_storage` is the set/clear loop, possibly followed by the phase hook. -/
theorem updateStorage_cases (ext : State) (mapUpdate : UpdateMap) :
    updateStorage C R ext mapUpdate = setAll ext mapUpdate ∨
      ∃ phase, updateStorage C R ext mapUpdate =
        R.onCeremonyPhaseChange phase (setAll ext mapUpdate) := by
  unfold updateStorage
  dsimp only
  -- the hook runs only for an update map bringing `Some(Some(phase))` that decodes
  cases hn : get mapUpdate (currentPhaseKey C) with
  | none => exact .inl (by simp)
  | some maybePhase =>
    cases maybePhase with
    | none => exact .inl (by simp)
    | some nextPhaseVec =>
      dsimp only
      split_ifs
      · cases hd : CeremonyPhaseType.decode nextPhaseVec with
        | none => exact .inl rfl
        | some phase => exact .inr ⟨phase, rfl⟩
      · exact .inl rfl

/-- The phase `update_storage` runs the hook with: the map's `CurrentPhase`, when it differs
    from the stored one and decodes. -/
def phaseChange (ext : State) (mapUpdate : UpdateMap) : Option CeremonyPhaseType :=
  match get mapUpdate (currentPhaseKey C) with
  | some (some v) =>
    if some v ≠ get ext (currentPhaseKey C) then CeremonyPhaseType.decode v else none
  | _ => none

/-- **The spec of `update_storage`**: the set/clear loop, then the hook once, with the phase
    `phaseChange` names, when it names one. -/
theorem updateStorage_eq_phaseChange (ext : State) (mapUpdate : UpdateMap) :
    updateStorage C R ext mapUpdate =
      match phaseChange C ext mapUpdate with
      | some phase => R.onCeremonyPhaseChange phase (setAll ext mapUpdate)
      | none => setAll ext mapUpdate := by
  unfold updateStorage phaseChange
  dsimp only
  -- the same three-way split as the source: no entry, `None`, or `Some(next_phase_vec)`
  cases hn : get mapUpdate (currentPhaseKey C) with
  | none => simp
  | some maybePhase =>
    cases maybePhase with
    | none => simp
    | some nextPhaseVec =>
      dsimp only
      by_cases hne : some nextPhaseVec = get ext (currentPhaseKey C)
      · rw [if_neg (not_not.mpr hne), if_neg (not_not.mpr hne)]
      · rw [if_pos hne, if_pos hne]

theorem phaseChange_eq_some_iff (ext : State) (mapUpdate : UpdateMap) (phase : CeremonyPhaseType) :
    phaseChange C ext mapUpdate = some phase ↔
      ∃ v, get mapUpdate (currentPhaseKey C) = some (some v) ∧
        get ext (currentPhaseKey C) ≠ some v ∧ CeremonyPhaseType.decode v = some phase := by
  unfold phaseChange
  constructor
  · intro h
    split at h
    · next v hv =>
      split at h
      · next hne => exact ⟨v, hv, fun heq => hne heq.symm, h⟩
      · cases h
    · cases h
  · rintro ⟨v, hv, hne, hdec⟩
    rw [hv]
    dsimp only
    rw [if_pos (fun heq => hne heq.symm), hdec]

/-- A map without a `CurrentPhase` value runs no hook. -/
theorem phaseChange_eq_none {ext : State} {mapUpdate : UpdateMap}
    (h : ∀ v, get mapUpdate (currentPhaseKey C) ≠ some (some v)) :
    phaseChange C ext mapUpdate = none := by
  unfold phaseChange
  split
  · next v hv => exact absurd hv (h v)
  · rfl

/-- The set/clear loop over a map of distinct keys: an updated key reads its update, every
    other key is unchanged. -/
theorem get_setAll {mapUpdate : UpdateMap} (h : NodupKeys mapUpdate) (ext : State) (k : Bytes) :
    get (setAll ext mapUpdate) k =
      if k ∈ keys mapUpdate then (get mapUpdate k).join else get ext k := by
  unfold setAll
  rw [get_applyAll h]
  split_ifs <;> rfl

/-- A map without a `CurrentPhase` entry runs no hook: `update_storage` is the set/clear loop. -/
theorem updateStorage_of_not_mem {mapUpdate : UpdateMap} (h : currentPhaseKey C ∉ keys mapUpdate)
    (ext : State) : updateStorage C R ext mapUpdate = setAll ext mapUpdate := by
  have hnone : phaseChange C ext mapUpdate = none := by
    apply phaseChange_eq_none
    intro v hv
    rw [get_eq_none_of_not_mem h] at hv
    cases hv
  rw [updateStorage_eq_phaseChange, hnone]

/-- A key the hook leaves alone reads, after `update_storage`, what the set/clear loop left. -/
theorem get_updateStorage {mapUpdate : UpdateMap} (h : NodupKeys mapUpdate) {k : Bytes}
    (hk : R.Keeps k) (ext : State) :
    get (updateStorage C R ext mapUpdate) k =
      if k ∈ keys mapUpdate then (get mapUpdate k).join else get ext k := by
  rw [updateStorage_eq_phaseChange, ← get_setAll h ext k]
  cases phaseChange C ext mapUpdate with
  | none => rfl
  | some phase => exact hk.onCeremonyPhaseChange phase _

end Update

/-! ## §4. The storage the enclave syncs from the chain. -/

section Requests

variable (C : Codec Acc Cid)

/-- `Stf::get_storage_hashes_to_update(call)`: the keys synced before executing `call`. -/
def getStorageHashesToUpdate (call : TrustedCallSigned Acc Cid) : List Bytes :=
  match call.call with
  | .balanceTransfer account _ _ _ => [nonceKeyHash C account]
  | .ceremoniesRegisterParticipant _ _ _ =>
    [storageValueKey C "EncointerCurrencies" "CurrencyIdentifiers"]
  | .ceremoniesRegisterAttestations _ _ =>
    [storageValueKey C "EncointerCurrencies" "CurrencyIdentifiers"]
  | .ceremoniesGrantReputation _ _ _ => [ceremonyMasterKey C]

/-- `Stf::storage_hashes_to_update_on_block`: the keys synced on every block. -/
def storageHashesToUpdateOnBlock : List Bytes :=
  [shardsKeyHash C, currentPhaseKey C,
   storageValueKey C "EncointerScheduler" "CurrentCeremonyIndex",
   storageValueKey C "EncointerScheduler" "NextPhaseTimestamp",
   storageMapKey C "EncointerScheduler" "PhaseDurations" CeremonyPhaseType.attesting.encode
     .blake2_128Concat]

/-- `Stf::get_storage_hashes_to_update_for_getter`: the getter is not looked at. -/
def getStorageHashesToUpdateForGetter (_getter : Getter Acc Cid) : List Bytes :=
  storageHashesToUpdateOnBlock C

/-- `storage_hashes_to_update_per_shard(shard)`: the shard is read as a currency. -/
def storageHashesToUpdatePerShard (shard : Cid) : List Bytes :=
  [bootstrapperKeyHash C shard, locationKeyHash C shard]

end Requests

end EncointerWorker.Stf
