import EncointerWorker.Relay.LightValidation

/-!
  EncointerWorker.Relay.Schedule — how `submit_simple_header` tracks the GRANDPA authority
  set, against the reference schedule, and what a failed submission leaves behind.

  GRANDPA's rule: a `ScheduledChange { next_authorities, delay }` signalled in header `N`
  takes effect once block `N + delay` is finalized; blocks up to `N + delay` are justified by
  the old set (id `s`), later ones by the new set (id `s + 1`).  `referenceSchedule` states
  that rule over a chain; `submitChain` records, for each header of a chain submitted through
  `submit_simple_header`, the set and id the code hands to `verify_grandpa_proof`.

  The code's schedule is split in two: `apply_validator_set_change` runs BEFORE verification
  and `take()`s the scheduled change whether or not it is due, and
  `schedule_validator_set_change` runs only on the justified path.  So a change with a delay
  other than `1` is dropped at the next header, and a change with delay `1` is applied one
  block early (`authority_change_dropped`).  The same early `take()` is written before a
  justification that then fails (`failed_submission_takes_schedule`).
-/

namespace EncointerWorker.Relay.Schedule

variable {H A : Type}

/-! ## §1. The reference schedule. -/

/-- The authority set state of the reference schedule. -/
structure AuthoritySchedule (A : Type) where
  set : AuthorityList A
  setId : Nat
  /-- A signalled change: the last block of the old set, and the new set. -/
  pending : Option (Nat × AuthorityList A)
  deriving DecidableEq, Repr

/-- The set and id that justify `header`, and the schedule after it: a pending change whose
    last old block lies before `header` is enacted first; then a change `header` signals is
    recorded (one pending change at a time). -/
def AuthoritySchedule.step (decode : Bytes → Option (ConsensusLog A))
    (σ : AuthoritySchedule A) (header : Header H) :
    (AuthorityList A × Nat) × AuthoritySchedule A :=
  let σ : AuthoritySchedule A := match σ.pending with
    | some (lastOld, next) =>
      if lastOld < header.number then ⟨next, σ.setId + 1, none⟩ else σ
    | none => σ
  let σ' : AuthoritySchedule A := match σ.pending, pendingChange decode header.digest with
    | none, some change =>
      { σ with pending := some (header.number + change.delay, change.nextAuthorities) }
    | _, _ => σ
  ((σ.set, σ.setId), σ')

/-- **The reference schedule** over a chain: the set and id justifying each header. -/
def referenceSchedule (decode : Bytes → Option (ConsensusLog A)) :
    AuthoritySchedule A → List (Header H) → List (AuthorityList A × Nat)
  | _, [] => []
  | σ, header :: chain =>
    let (passed, σ') := σ.step decode header
    passed :: referenceSchedule decode σ' chain

/-! ## §2. What the code passes to `verify_grandpa_proof`. -/

section Code

variable [DecidableEq H] (S : Substrate H A)

/-- Submit a chain in order through `submit_simple_header`, recording for each header the set
    and id handed to `verify_grandpa_proof` (`none` for a header without justification: no
    proof is verified).  The run stops at the first call that does not return `Ok`. -/
def submitChain (v : LightValidation H A) (relayId : Nat) :
    List (Header H × Option Bytes) → List (Option (AuthorityList A × Nat))
  | [] => []
  | (header, justification) :: chain =>
    match v.trackedRelays relayId with
    | none => []
    | some relay =>
      let relay' := applyValidatorSetChange relay header
      (justification.map fun _ => (relay'.currentValidatorSet, relay'.currentValidatorSetId)) ::
        match submitSimpleHeader S v relayId header justification with
        | some (.ok (), v') => submitChain v' relayId chain
        | _ => []

/-- The set `submit_simple_header` verifies a justification against is the relay's set after
    `apply_validator_set_change`: the entry `submitChain` records is the one passed. -/
theorem submitSimpleHeader_verifies_applied_set {v v' : LightValidation H A} {relayId : Nat}
    {header : Header H} {j : Bytes}
    (h : submitSimpleHeader S v relayId header (some j) = some (.ok (), v')) :
    ∃ relay, v.trackedRelays relayId = some relay ∧
      S.verifyFinalizes j (S.hash header) header.number
        (applyValidatorSetChange relay header).currentValidatorSetId
        (applyValidatorSetChange relay header).currentValidatorSet = true := by
  obtain ⟨relay, hrelay, -, hcases⟩ := submitSimpleHeader_ok S h
  rcases hcases with ⟨hnone, -⟩ | ⟨j', hj', -, hfin, -⟩
  · cases hnone
  · cases hj'
    exact ⟨relay, hrelay, hfin⟩

end Code

/-! ## §3. The schedule on a chain with a delayed change. -/

/-- The authority set before the change, `[(0, 1)]`, and after it, `[(1, 1)]`. -/
def oldSet : AuthorityList Nat := [(0, 1)]

def newSet : AuthorityList Nat := [(1, 1)]

/-- Consensus payload `[2]` decodes as `ScheduledChange { next_authorities: newSet, delay }`
    and `[1]` as the same change with delay `1`; nothing else decodes. -/
def scheduleSubstrate : Substrate Nat Nat where
  hash header := header.number
  hashOfExtrinsic xt := xt.length
  decodeConsensusLog data :=
    if data = [2] then some (.scheduledChange ⟨newSet, 2⟩)
    else if data = [1] then some (.scheduledChange ⟨newSet, 1⟩) else none
  checkProof _ _ _ := .ok (some [1])
  encodeAuthorityList _ := []
  voterSetNew _ := true
  verifyFinalizes _ _ _ _ _ := true

/-- Header `n` of the chain, on top of header `n - 1`, with the given digest. -/
def chainHeader (n : Nat) (digest : List DigestItem) : Header Nat := ⟨n - 1, n, 0, 0, digest⟩

/-- The relay as `initialize_relay` leaves it on header `0` with the old set. -/
def relayAtGenesis : LightValidation Nat Nat :=
  { (LightValidation.new : LightValidation Nat Nat).setRelay 1
      (RelayState.new scheduleSubstrate.hash (chainHeader 0 []) oldSet) with numRelays := 1 }

theorem relayAtGenesis_eq :
    initializeRelay scheduleSubstrate LightValidation.new (chainHeader 0 []) oldSet [] =
      some (.ok 1, relayAtGenesis) := rfl

/-- The chain `1, 2, 3, 4`: header `1` signals a change with delay `d`, headers `1` and `4`
    carry a justification. -/
def delayedChain (d : UInt8) : List (Header Nat × Option Bytes) :=
  [(chainHeader 1 [.consensus GRANDPA_ENGINE_ID [d]], some []), (chainHeader 2 [], none),
   (chainHeader 3 [], none), (chainHeader 4 [], some [])]

/-- **The code drops a change of delay 2.**  Header `1` (justified) signals the switch to
    `newSet` after block `3`; the reference verifies header `4` against `newSet` with id `1`,
    the code against `oldSet` with id `0`: header `2`'s `apply_validator_set_change` has
    taken the change and discarded it. -/
theorem authority_change_dropped :
    submitChain scheduleSubstrate relayAtGenesis 1 (delayedChain 2) =
      [some (oldSet, 0), none, none, some (oldSet, 0)] ∧
    referenceSchedule scheduleSubstrate.decodeConsensusLog ⟨oldSet, 0, none⟩
      ((delayedChain 2).map Prod.fst) =
      [(oldSet, 0), (oldSet, 0), (oldSet, 0), (newSet, 1)] := by
  decide

-- With delay `1` the change is applied one block early: header `2`, the last block of the
-- old set, is verified against `newSet`.
example :
    submitChain scheduleSubstrate relayAtGenesis 1
        [(chainHeader 1 [.consensus GRANDPA_ENGINE_ID [1]], some []),
         (chainHeader 2 [], some [])] = [some (oldSet, 0), some (newSet, 1)] ∧
    referenceSchedule scheduleSubstrate.decodeConsensusLog ⟨oldSet, 0, none⟩
      [chainHeader 1 [.consensus GRANDPA_ENGINE_ID [1]], chainHeader 2 []] =
      [(oldSet, 0), (oldSet, 0)] := by
  decide

/-! ## §4. A failed submission.

  `submit_finalized_headers` checks everything before it writes; `submit_simple_header` writes
  `apply_validator_set_change`'s result into the relay before it delegates, and keeps it when
  the delegate fails. -/

/-- **What a failed relay call leaves.**  `submit_finalized_headers` returning `Err` leaves the
    light client as it was; `submit_simple_header` returning `Err` leaves it as it was, or, for a
    header that passed the parent check, with exactly one change: the relay's schedule applied
    for `header`. -/
theorem relay_error_leaves_only_schedule [DecidableEq H] (S : Substrate H A) :
    (∀ v relayId header proof vs vsId grandpaProof e (v' : LightValidation H A),
      submitFinalizedHeaders S v relayId header proof vs vsId grandpaProof = some (.error e, v') →
        v' = v) ∧
    (∀ v relayId header grandpaProof e (v' : LightValidation H A),
      submitSimpleHeader S v relayId header grandpaProof = some (.error e, v') →
        v' = v ∨ ∃ relay, v.trackedRelays relayId = some relay ∧
          S.hash relay.lastFinalizedBlockHeader = header.parentHash ∧
          v' = v.setRelay relayId (applyValidatorSetChange relay header)) := by
  constructor
  · intro v relayId header proof vs vsId grandpaProof e v' h
    exact submitFinalizedHeaders_error S h
  · intro v relayId header grandpaProof e v' h
    exact submitSimpleHeader_error_child S h

/-- The relay with a change scheduled at block `5` and head at header `1`. -/
def relayWithSchedule : LightValidation Nat Nat :=
  relayAtGenesis.setRelay 1
    { RelayState.new scheduleSubstrate.hash (chainHeader 1 []) oldSet with
      scheduledChange := some ⟨5, newSet⟩ }

/-- `scheduleSubstrate`, except that no justification verifies. -/
def rejectingSubstrate : Substrate Nat Nat :=
  { scheduleSubstrate with verifyFinalizes := fun _ _ _ _ _ => false }

/-- **`submit_simple_header` is not atomic on `Err`.**  Header `2`, a child of the head, with a
    justification that fails: the call returns `Err(InvalidFinalityProof)`, and the relay it
    leaves has lost the change scheduled at block `5`. -/
theorem failed_submission_takes_schedule :
    (submitSimpleHeader rejectingSubstrate relayWithSchedule 1 (chainHeader 2 []) (some [])).map
        (fun r => (r.1, (r.2.trackedRelays 1).map RelayState.scheduledChange)) =
      some (.error .invalidFinalityProof, some none) ∧
    (relayWithSchedule.trackedRelays 1).map RelayState.scheduledChange = some (some ⟨5, newSet⟩) := by
  decide

/-- The failed submission above leaves the relay with its schedule applied for header `2`. -/
theorem relay_error_at_rejected_justification :
    ∃ v', submitSimpleHeader rejectingSubstrate relayWithSchedule 1 (chainHeader 2 []) (some []) =
        some (.error .invalidFinalityProof, v') ∧
      (v' = relayWithSchedule ∨ ∃ relay, relayWithSchedule.trackedRelays 1 = some relay ∧
        rejectingSubstrate.hash relay.lastFinalizedBlockHeader = (chainHeader 2 []).parentHash ∧
        v' = relayWithSchedule.setRelay 1 (applyValidatorSetChange relay (chainHeader 2 []))) :=
  by
  refine ⟨_, rfl, ?_⟩
  exact (relay_error_leaves_only_schedule rejectingSubstrate).2 relayWithSchedule 1
    (chainHeader 2 []) (some []) .invalidFinalityProof _ rfl

end EncointerWorker.Relay.Schedule
