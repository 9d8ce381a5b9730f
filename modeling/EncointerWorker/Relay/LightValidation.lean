import EncointerWorker.Relay.Types

/-!
  EncointerWorker.Relay.LightValidation — the operations of `LightValidation`
  (`enclave/chain_relay/src/lib.rs`), each translated from its Rust body, with the spec
  lemmas every later proof cites instead of unfolding the operation.

  A method on `&mut self` returns a `Call`: `none` for a panic (`expect`, `Vec::remove`
  out of range, indexing an empty vector), otherwise its `Result` and the relay AFTER the
  call.  Each branch that writes the relay writes it with `setRelay`, exactly once, as the
  `get_mut` borrow does.

  Spec lemmas (§5):
    * `submitFinalizedHeaders_error` / `_ok` — everything a call can do, guards included.
    * `submitSimpleHeader_error_child` / `_ok` — the same for the parent-checked entry point, which
      FIRST runs `apply_validator_set_change` and then delegates.
-/

namespace EncointerWorker.Relay

variable {H A : Type}

/-! ## §1. Ancestry proofs and digests. -/

section Ancestry

variable [DecidableEq H] (hash : Header H → H)

/-- `verify_ancestry`: `child` descends from `ancestorHash` directly, or through `proof`, a
    chain of headers between (but not including) the two, newest first. -/
def verifyAncestry (proof : List (Header H)) (ancestorHash : H) (child : Header H) :
    Except Error Unit :=
  if child.parentHash = ancestorHash then .ok () else walk proof child.parentHash
where
  /-- The `for header in proof.iter()` loop, `parentHash` its mutable cursor.  A header
      whose hash is not the cursor `break`s out to the final `Err`. -/
  walk : List (Header H) → H → Except Error Unit
    | [], _ => .error .invalidAncestryProof
    | header :: proof, parentHash =>
      if hash header ≠ parentHash then .error .invalidAncestryProof
      else if header.parentHash = ancestorHash then .ok ()
      else walk proof header.parentHash

end Ancestry

/-- `DigestItem::try_to(OpaqueDigestItemId::Consensus(engine))`: the decoded payload of a
    consensus item of that engine. -/
def DigestItem.tryToConsensus (decode : Bytes → Option (ConsensusLog A)) (engine : Bytes) :
    DigestItem → Option (ConsensusLog A)
  | .consensus engine' data => if engine' = engine then decode data else none
  | _ => none

/-- `grandpa_log`: `convert_first` is the first digest item that yields a GRANDPA log. -/
def grandpaLog (decode : Bytes → Option (ConsensusLog A)) (digest : List DigestItem) :
    Option (ConsensusLog A) :=
  digest.findSome? (DigestItem.tryToConsensus decode GRANDPA_ENGINE_ID)

/-- `pending_change`: the standard scheduled change the digest signals, if any. -/
def pendingChange (decode : Bytes → Option (ConsensusLog A)) (digest : List DigestItem) :
    Option (ScheduledChange A) :=
  (grandpaLog decode digest).bind ConsensusLog.tryIntoChange

/-! ## §2. The authority set schedule. -/

/-- `apply_validator_set_change`: `take()` the scheduled change — whether or not it is due —
    and enact it when it is due at this header's number. -/
def applyValidatorSetChange (relay : RelayState H A) (header : Header H) : RelayState H A :=
  match relay.scheduledChange with
  | none => relay
  | some change =>
    if change.atBlock = header.number then
      { relay with
        scheduledChange := none
        currentValidatorSet := change.nextAuthorityList
        currentValidatorSetId := relay.currentValidatorSetId + 1 }
    else { relay with scheduledChange := none }

/-- `schedule_validator_set_change`: record the change a header signals, `delay` blocks on,
    unless one is already scheduled (then the code only logs an error). -/
def scheduleValidatorSetChange (decode : Bytes → Option (ConsensusLog A))
    (relay : RelayState H A) (header : Header H) : RelayState H A :=
  match pendingChange decode header.digest with
  | none => relay
  | some log =>
    if relay.scheduledChange.isSome then relay
    else { relay with
      scheduledChange := some ⟨log.delay + header.number, log.nextAuthorities⟩ }

/-! ## §3. Importing headers. -/

section Accept

variable (S : Substrate H A)

/-- The no-justification branch of `submit_finalized_headers`: the header becomes the head
    and its hash is queued as unjustified. -/
def RelayState.acceptUnjustified (relay : RelayState H A) (header : Header H) :
    RelayState H A :=
  { relay with
    lastFinalizedBlockHeader := header
    unjustifiedHeaders := relay.unjustifiedHeaders ++ [S.hash header] }

/-- The justified branch of `submit_finalized_headers`, after the proof verified: new head,
    schedule the signalled change, `append` the unjustified hashes, `push` the header's hash,
    and adopt the given set when its id is larger. -/
def RelayState.acceptJustified (relay : RelayState H A) (header : Header H)
    (validatorSet : AuthorityList A) (validatorSetId : Nat) : RelayState H A :=
  let relay := scheduleValidatorSetChange S.decodeConsensusLog
    { relay with lastFinalizedBlockHeader := header } header
  let relay := { relay with
    headerHashes := relay.headerHashes ++ relay.unjustifiedHeaders ++ [S.hash header]
    unjustifiedHeaders := [] }
  if validatorSetId > relay.currentValidatorSetId then
    { relay with currentValidatorSet := validatorSet, currentValidatorSetId := validatorSetId }
  else relay

end Accept

section Import

variable [DecidableEq H] (S : Substrate H A)

/-- `check_validator_set_proof`: the proven `:grandpa_authorities` value is the version byte
    `1` followed by the encoded set. -/
def checkValidatorSetProof (stateRoot : H) (proof : StorageProof)
    (validatorSet : AuthorityList A) : Except Error Unit :=
  match S.checkProof stateRoot GRANDPA_AUTHORITIES_KEY proof with
  | .error e => .error e
  | .ok none => .error .storageValueUnavailable
  | .ok (some actual) =>
    if 1 :: S.encodeAuthorityList validatorSet = actual then .ok ()
    else .error .validatorSetMismatch

/-- `verify_grandpa_proof`: any justification error becomes `InvalidFinalityProof`. -/
def verifyGrandpaProof (justification : Bytes) (hash : H) (number setId : Nat)
    (voters : AuthorityList A) : Except Error Unit :=
  if S.verifyFinalizes justification hash number setId voters then .ok ()
  else .error .invalidFinalityProof

/-- `LightValidation::initialize_relay`: a new relay under the id `num_relays + 1`. -/
def initializeRelay (v : LightValidation H A) (blockHeader : Header H)
    (validatorSet : AuthorityList A) (validatorSetProof : StorageProof) : Call H A Nat :=
  match checkValidatorSetProof S blockHeader.stateRoot validatorSetProof validatorSet with
  | .error e => some (.error e, v)
  | .ok () =>
    let newRelayId := v.numRelays + 1
    some (.ok newRelayId,
      { v.setRelay newRelayId (RelayState.new S.hash blockHeader validatorSet) with
        numRelays := newRelayId })

/-- `LightValidation::submit_finalized_headers`. -/
def submitFinalizedHeaders (v : LightValidation H A) (relayId : Nat) (header : Header H)
    (ancestryProof : List (Header H)) (validatorSet : AuthorityList A) (validatorSetId : Nat)
    (grandpaProof : Option Bytes) : Call H A Unit :=
  match v.trackedRelays relayId with
  | none => some (.error .noSuchRelayExists, v)
  | some relay =>
    match verifyAncestry S.hash ancestryProof (S.hash relay.lastFinalizedBlockHeader) header with
    | .error e => some (.error e, v)
    | .ok () =>
      match grandpaProof with
      | none => some (.ok (), v.setRelay relayId (relay.acceptUnjustified S header))
      | some justification =>
        -- `VoterSet::new(..).expect("VoterSet may not be empty")`
        if S.voterSetNew validatorSet then
          match verifyGrandpaProof S justification (S.hash header) header.number
              validatorSetId validatorSet with
          | .error e => some (.error e, v)
          | .ok () =>
            some (.ok (), v.setRelay relayId
              (relay.acceptJustified S header validatorSet validatorSetId))
        else none

/-- `LightValidation::submit_simple_header`: parent check, then the schedule's enactment,
    then `submit_finalized_headers` with an empty ancestry proof and the current set. -/
def submitSimpleHeader (v : LightValidation H A) (relayId : Nat) (header : Header H)
    (grandpaProof : Option Bytes) : Call H A Unit :=
  match v.trackedRelays relayId with
  | none => some (.error .noSuchRelayExists, v)
  | some relay =>
    if S.hash relay.lastFinalizedBlockHeader ≠ header.parentHash then
      some (.error .headerAncestryMismatch, v)
    else
      let relay := applyValidatorSetChange relay header
      submitFinalizedHeaders S (v.setRelay relayId relay) relayId header []
        relay.currentValidatorSet relay.currentValidatorSetId grandpaProof

end Import

/-! ## §4. Extrinsic inclusion and queries. -/

section Inclusion

variable [DecidableEq H] (S : Substrate H A)

/-- `LightValidation::submit_xt_to_be_included`. -/
def submitXtToBeIncluded (v : LightValidation H A) (relayId : Nat) (extrinsic : Bytes) :
    Call H A Unit :=
  match v.trackedRelays relayId with
  | none => some (.error .noSuchRelayExists, v)
  | some relay =>
    some (.ok (), v.setRelay relayId
      { relay with verifyTxInclusion := relay.verifyTxInclusion ++ [extrinsic] })

/-- `Vec::remove(i)` for each index in turn; it panics on an index out of range. -/
def removeEach {α : Type} : List Nat → List α → Option (List α)
  | [], l => some l
  | i :: is, l => if i < l.length then removeEach is (l.eraseIdx i) else none

/-- `LightValidation::check_xt_inclusion`: for every extrinsic of the block, the position of
    the first pending one with the same hash; these positions, highest first, are removed. -/
def checkXtInclusion (v : LightValidation H A) (relayId : Nat) (block : Block H) :
    Call H A Unit :=
  match v.trackedRelays relayId with
  | none => some (.error .noSuchRelayExists, v)
  | some relay =>
    if relay.verifyTxInclusion.isEmpty then some (.ok (), v)
    else
      let foundXts := block.extrinsics.filterMap fun xt =>
        relay.verifyTxInclusion.findIdx? fun xtOpaque =>
          S.hashOfExtrinsic xt == S.hashOfExtrinsic xtOpaque
      -- `found_xts.sort_by(|a, b| b.cmp(a))`
      match removeEach (foundXts.mergeSort fun a b => decide (b ≤ a)) relay.verifyTxInclusion with
      | none => none
      | some rest => some (.ok (), v.setRelay relayId { relay with verifyTxInclusion := rest })

/-- `LightValidation::genesis_hash`: `header_hashes[0]`, which panics on an empty vector. -/
def genesisHash (v : LightValidation H A) (relayId : Nat) : Option (Except Error H) :=
  match v.trackedRelays relayId with
  | none => some (.error .noSuchRelayExists)
  | some relay => relay.headerHashes.head?.map .ok

/-- `LightValidation::latest_header`. -/
def latestHeader (v : LightValidation H A) (relayId : Nat) : Except Error (Header H) :=
  match v.trackedRelays relayId with
  | none => .error .noSuchRelayExists
  | some relay => .ok relay.lastFinalizedBlockHeader

end Inclusion

/-! ## §5. Spec lemmas.

The schedule updates touch only the schedule and the set; the two accept branches touch the
head and the hash queues.  The inversion lemmas say everything a submission can do. -/

section FieldLemmas

variable (relay : RelayState H A) (header : Header H)

/-- `apply_validator_set_change` changes the schedule and the validator set only. -/
theorem applyValidatorSetChange_eq :
    ∃ c vs vsId, applyValidatorSetChange relay header =
      { relay with
        scheduledChange := c
        currentValidatorSet := vs
        currentValidatorSetId := vsId } := by
  unfold applyValidatorSetChange
  split
  · exact ⟨relay.scheduledChange, relay.currentValidatorSet, relay.currentValidatorSetId, rfl⟩
  · split
    · exact ⟨none, _, _, rfl⟩
    · exact ⟨none, relay.currentValidatorSet, relay.currentValidatorSetId, rfl⟩

/-- The fields `apply_validator_set_change` leaves alone. -/
@[simp] theorem applyValidatorSetChange_lastFinalizedBlockHeader :
    (applyValidatorSetChange relay header).lastFinalizedBlockHeader =
      relay.lastFinalizedBlockHeader := by
  obtain ⟨c, vs, vsId, hc⟩ := applyValidatorSetChange_eq relay header
  rw [hc]

@[simp] theorem applyValidatorSetChange_headerHashes :
    (applyValidatorSetChange relay header).headerHashes = relay.headerHashes := by
  obtain ⟨c, vs, vsId, hc⟩ := applyValidatorSetChange_eq relay header
  rw [hc]

@[simp] theorem applyValidatorSetChange_unjustifiedHeaders :
    (applyValidatorSetChange relay header).unjustifiedHeaders = relay.unjustifiedHeaders := by
  obtain ⟨c, vs, vsId, hc⟩ := applyValidatorSetChange_eq relay header
  rw [hc]

@[simp] theorem applyValidatorSetChange_verifyTxInclusion :
    (applyValidatorSetChange relay header).verifyTxInclusion = relay.verifyTxInclusion := by
  obtain ⟨c, vs, vsId, hc⟩ := applyValidatorSetChange_eq relay header
  rw [hc]

variable (decode : Bytes → Option (ConsensusLog A))

/-- `schedule_validator_set_change` writes the schedule and nothing else. -/
theorem scheduleValidatorSetChange_eq :
    ∃ c, scheduleValidatorSetChange decode relay header = { relay with scheduledChange := c } := by
  unfold scheduleValidatorSetChange
  split
  · exact ⟨relay.scheduledChange, rfl⟩
  · split
    · exact ⟨relay.scheduledChange, rfl⟩
    · exact ⟨_, rfl⟩

@[simp] theorem scheduleValidatorSetChange_lastFinalizedBlockHeader :
    (scheduleValidatorSetChange decode relay header).lastFinalizedBlockHeader =
      relay.lastFinalizedBlockHeader := by
  obtain ⟨c, hc⟩ := scheduleValidatorSetChange_eq relay header decode
  rw [hc]

@[simp] theorem scheduleValidatorSetChange_headerHashes :
    (scheduleValidatorSetChange decode relay header).headerHashes = relay.headerHashes := by
  obtain ⟨c, hc⟩ := scheduleValidatorSetChange_eq relay header decode
  rw [hc]

@[simp] theorem scheduleValidatorSetChange_unjustifiedHeaders :
    (scheduleValidatorSetChange decode relay header).unjustifiedHeaders =
      relay.unjustifiedHeaders := by
  obtain ⟨c, hc⟩ := scheduleValidatorSetChange_eq relay header decode
  rw [hc]

@[simp] theorem scheduleValidatorSetChange_verifyTxInclusion :
    (scheduleValidatorSetChange decode relay header).verifyTxInclusion =
      relay.verifyTxInclusion := by
  obtain ⟨c, hc⟩ := scheduleValidatorSetChange_eq relay header decode
  rw [hc]

@[simp] theorem scheduleValidatorSetChange_currentValidatorSetId :
    (scheduleValidatorSetChange decode relay header).currentValidatorSetId =
      relay.currentValidatorSetId := by
  obtain ⟨c, hc⟩ := scheduleValidatorSetChange_eq relay header decode
  rw [hc]

end FieldLemmas

section AcceptLemmas

variable (S : Substrate H A) (relay : RelayState H A) (header : Header H)

@[simp] theorem acceptUnjustified_lastFinalizedBlockHeader :
    (relay.acceptUnjustified S header).lastFinalizedBlockHeader = header := rfl

@[simp] theorem acceptUnjustified_headerHashes :
    (relay.acceptUnjustified S header).headerHashes = relay.headerHashes := rfl

@[simp] theorem acceptUnjustified_unjustifiedHeaders :
    (relay.acceptUnjustified S header).unjustifiedHeaders =
      relay.unjustifiedHeaders ++ [S.hash header] := rfl

@[simp] theorem acceptUnjustified_verifyTxInclusion :
    (relay.acceptUnjustified S header).verifyTxInclusion = relay.verifyTxInclusion := rfl

variable (vs : AuthorityList A) (vsId : Nat)

/-- The justified branch, read field by field: the set id can only grow. -/
theorem acceptJustified_fields :
    (relay.acceptJustified S header vs vsId).lastFinalizedBlockHeader = header ∧
    (relay.acceptJustified S header vs vsId).headerHashes =
      relay.headerHashes ++ relay.unjustifiedHeaders ++ [S.hash header] ∧
    (relay.acceptJustified S header vs vsId).unjustifiedHeaders = [] ∧
    (relay.acceptJustified S header vs vsId).verifyTxInclusion = relay.verifyTxInclusion := by
  dsimp only [RelayState.acceptJustified]
  split_ifs <;> simp

@[simp] theorem acceptJustified_lastFinalizedBlockHeader :
    (relay.acceptJustified S header vs vsId).lastFinalizedBlockHeader = header :=
  (acceptJustified_fields S relay header vs vsId).1

@[simp] theorem acceptJustified_headerHashes :
    (relay.acceptJustified S header vs vsId).headerHashes =
      relay.headerHashes ++ relay.unjustifiedHeaders ++ [S.hash header] :=
  (acceptJustified_fields S relay header vs vsId).2.1

@[simp] theorem acceptJustified_unjustifiedHeaders :
    (relay.acceptJustified S header vs vsId).unjustifiedHeaders = [] :=
  (acceptJustified_fields S relay header vs vsId).2.2.1

@[simp] theorem acceptJustified_verifyTxInclusion :
    (relay.acceptJustified S header vs vsId).verifyTxInclusion = relay.verifyTxInclusion :=
  (acceptJustified_fields S relay header vs vsId).2.2.2

end AcceptLemmas

section Inversion

variable [DecidableEq H] (S : Substrate H A) {v v' : LightValidation H A} {relayId : Nat}
  {header : Header H} {proof : List (Header H)} {vs : AuthorityList A} {vsId : Nat}
  {grandpaProof : Option Bytes}

/-- **`submit_finalized_headers` is atomic on `Err`**: every error exit comes before the
    first write. -/
theorem submitFinalizedHeaders_error {e : Error}
    (h : submitFinalizedHeaders S v relayId header proof vs vsId grandpaProof =
      some (.error e, v')) : v' = v := by
  unfold submitFinalizedHeaders at h
  split at h
  · -- `NoSuchRelayExists`
    exact (Prod.mk.inj (Option.some.inj h)).2.symm
  · split at h
    · -- the ancestry proof fails
      exact (Prod.mk.inj (Option.some.inj h)).2.symm
    · split at h
      · cases h
      · split at h
        · split at h
          · -- the justification fails
            exact (Prod.mk.inj (Option.some.inj h)).2.symm
          · cases h
        · cases h

/-- **Everything an accepted `submit_finalized_headers` does.**  The relay exists, the header
    descends from its head through the proof, and either no justification was given and the
    header is queued as unjustified, or the justification verifies for the GIVEN set and id
    and the header is finalized. -/
theorem submitFinalizedHeaders_ok
    (h : submitFinalizedHeaders S v relayId header proof vs vsId grandpaProof =
      some (.ok (), v')) :
    ∃ relay, v.trackedRelays relayId = some relay ∧
      verifyAncestry S.hash proof (S.hash relay.lastFinalizedBlockHeader) header = .ok () ∧
      ((grandpaProof = none ∧ v' = v.setRelay relayId (relay.acceptUnjustified S header)) ∨
       (∃ j, grandpaProof = some j ∧ S.voterSetNew vs = true ∧
          S.verifyFinalizes j (S.hash header) header.number vsId vs = true ∧
          v' = v.setRelay relayId (relay.acceptJustified S header vs vsId))) := by
  unfold submitFinalizedHeaders at h
  split at h
  · cases h
  · rename_i relay hrelay
    split at h
    · cases h
    · rename_i hanc
      refine ⟨relay, hrelay, hanc, ?_⟩
      split at h
      · exact .inl ⟨rfl, (Prod.mk.inj (Option.some.inj h)).2.symm⟩
      · rename_i j
        split at h
        · rename_i hvoters
          split at h
          · cases h
          · rename_i hverify
            have hfin : S.verifyFinalizes j (S.hash header) header.number vsId vs = true := by
              unfold verifyGrandpaProof at hverify
              split at hverify
              · assumption
              · cases hverify
            exact .inr ⟨j, rfl, hvoters, hfin, (Prod.mk.inj (Option.some.inj h)).2.symm⟩
        · cases h

/-- `submit_simple_header` on `Err`: either nothing was written, or the header passed the
    parent check and the relay was left as `apply_validator_set_change` made it before the
    delegated call failed. -/
theorem submitSimpleHeader_error_child {e : Error}
    (h : submitSimpleHeader S v relayId header grandpaProof = some (.error e, v')) :
    v' = v ∨ ∃ relay, v.trackedRelays relayId = some relay ∧
      S.hash relay.lastFinalizedBlockHeader = header.parentHash ∧
      v' = v.setRelay relayId (applyValidatorSetChange relay header) := by
  unfold submitSimpleHeader at h
  split at h
  · exact .inl (Prod.mk.inj (Option.some.inj h)).2.symm
  · rename_i relay hrelay
    split at h
    · exact .inl (Prod.mk.inj (Option.some.inj h)).2.symm
    · rename_i hchild
      exact .inr ⟨relay, hrelay, not_not.mp hchild, submitFinalizedHeaders_error S h⟩

/-- `submit_simple_header` on `Err`, without the parent check. -/
theorem submitSimpleHeader_error {e : Error}
    (h : submitSimpleHeader S v relayId header grandpaProof = some (.error e, v')) :
    v' = v ∨ ∃ relay, v.trackedRelays relayId = some relay ∧
      v' = v.setRelay relayId (applyValidatorSetChange relay header) :=
  (submitSimpleHeader_error_child S h).imp id fun ⟨relay, hrelay, _, hv'⟩ => ⟨relay, hrelay, hv'⟩

/-- **Everything an accepted `submit_simple_header` does.**  The header is a child of the
    relay's head; the schedule is applied first; then the header is queued as unjustified, or
    finalized with a justification that verifies for the set AFTER the schedule's step. -/
theorem submitSimpleHeader_ok
    (h : submitSimpleHeader S v relayId header grandpaProof = some (.ok (), v')) :
    ∃ relay, v.trackedRelays relayId = some relay ∧
      S.hash relay.lastFinalizedBlockHeader = header.parentHash ∧
      ((grandpaProof = none ∧ v' = v.setRelay relayId
          ((applyValidatorSetChange relay header).acceptUnjustified S header)) ∨
       (∃ j, grandpaProof = some j ∧
          S.voterSetNew (applyValidatorSetChange relay header).currentValidatorSet = true ∧
          S.verifyFinalizes j (S.hash header) header.number
            (applyValidatorSetChange relay header).currentValidatorSetId
            (applyValidatorSetChange relay header).currentValidatorSet = true ∧
          v' = v.setRelay relayId ((applyValidatorSetChange relay header).acceptJustified S header
            (applyValidatorSetChange relay header).currentValidatorSet
            (applyValidatorSetChange relay header).currentValidatorSetId))) := by
  unfold submitSimpleHeader at h
  split at h
  · cases h
  · rename_i relay hrelay
    split at h
    · cases h
    · rename_i hparent
      refine ⟨relay, hrelay, not_not.1 hparent, ?_⟩
      obtain ⟨relay', hrelay', -, hcases⟩ := submitFinalizedHeaders_ok S h
      -- the delegated call reads back the relay `apply_validator_set_change` wrote
      rw [setRelay_same, Option.some.injEq] at hrelay'
      subst hrelay'
      rcases hcases with ⟨hnone, hv'⟩ | ⟨j, hj, hvoters, hfin, hv'⟩
      · rw [setRelay_setRelay] at hv'
        exact .inl ⟨hnone, hv'⟩
      · rw [setRelay_setRelay] at hv'
        exact .inr ⟨j, hj, hvoters, hfin, hv'⟩

/-- **A child of the head is accepted.**  Without a justification, `submit_simple_header` of a
    header whose parent hash is the hash of the tracked relay's head returns `Ok`: the schedule
    is applied and the header queued as unjustified.  The converse of `submitSimpleHeader_ok`
    for this branch. -/
theorem submitSimpleHeader_child {relay : RelayState H A}
    (hrelay : v.trackedRelays relayId = some relay)
    (hparent : header.parentHash = S.hash relay.lastFinalizedBlockHeader) :
    submitSimpleHeader S v relayId header none = some (.ok (), v.setRelay relayId
      ((applyValidatorSetChange relay header).acceptUnjustified S header)) := by
  -- the empty ancestry proof passes: the header's parent is the head itself
  have hancestry : verifyAncestry S.hash []
      (S.hash (applyValidatorSetChange relay header).lastFinalizedBlockHeader) header = .ok () := by
    rw [applyValidatorSetChange_lastFinalizedBlockHeader, verifyAncestry, if_pos hparent]
  unfold submitSimpleHeader
  rw [hrelay]
  dsimp only
  rw [if_neg (not_not.mpr hparent.symm)]
  unfold submitFinalizedHeaders
  rw [setRelay_same]
  dsimp only
  rw [hancestry]
  dsimp only
  rw [setRelay_setRelay]

omit [DecidableEq H] in
/-- The inclusion queue operations write at most that queue. -/
theorem submitXtToBeIncluded_cases {r : Except Error Unit} {xt : Bytes}
    (h : submitXtToBeIncluded v relayId xt = some (r, v')) :
    v' = v ∨ ∃ relay l, v.trackedRelays relayId = some relay ∧
      v' = v.setRelay relayId { relay with verifyTxInclusion := l } := by
  unfold submitXtToBeIncluded at h
  split at h
  · exact .inl (Prod.mk.inj (Option.some.inj h)).2.symm
  · rename_i relay hrelay
    exact .inr ⟨relay, _, hrelay, (Prod.mk.inj (Option.some.inj h)).2.symm⟩

theorem checkXtInclusion_cases {r : Except Error Unit} {block : Block H}
    (h : checkXtInclusion S v relayId block = some (r, v')) :
    v' = v ∨ ∃ relay l, v.trackedRelays relayId = some relay ∧
      v' = v.setRelay relayId { relay with verifyTxInclusion := l } := by
  unfold checkXtInclusion at h
  split at h
  · exact .inl (Prod.mk.inj (Option.some.inj h)).2.symm
  · rename_i relay hrelay
    split at h
    · exact .inl (Prod.mk.inj (Option.some.inj h)).2.symm
    · dsimp only at h
      split at h
      · cases h
      · exact .inr ⟨relay, _, hrelay, (Prod.mk.inj (Option.some.inj h)).2.symm⟩

end Inversion

/-! ## §6. Heads. -/

section Heads

variable {v₁ v₂ v₃ : LightValidation H A}

/-- `v'` tracks as many relays as `v`, each with the same head. -/
def SameHeads (v v' : LightValidation H A) : Prop :=
  v'.numRelays = v.numRelays ∧ ∀ i, latestHeader v' i = latestHeader v i

theorem sameHeads_refl (v : LightValidation H A) : SameHeads v v := ⟨rfl, fun _ => rfl⟩

theorem SameHeads.trans (h₁ : SameHeads v₁ v₂) (h₂ : SameHeads v₂ v₃) : SameHeads v₁ v₃ :=
  ⟨h₂.1.trans h₁.1, fun i => (h₂.2 i).trans (h₁.2 i)⟩

/-- Rewriting the pending extrinsics of one relay (what `check_xt_inclusion` and
    `submit_xt_to_be_included` do) moves no head. -/
theorem sameHeads_of_txs {v v' : LightValidation H A} {relayId : Nat}
    (h : v' = v ∨ ∃ relay l, v.trackedRelays relayId = some relay ∧
      v' = v.setRelay relayId { relay with verifyTxInclusion := l }) : SameHeads v v' := by
  rcases h with rfl | ⟨relay, l, hrelay, rfl⟩
  · exact sameHeads_refl _
  · refine ⟨rfl, fun i => ?_⟩
    by_cases hi : i = relayId
    · subst hi
      simp [latestHeader, hrelay]
    · simp [latestHeader, setRelay_ne _ _ hi]

end Heads

end EncointerWorker.Relay
