import EncointerWorker.Enclave.StateFile

/-!
  EncointerWorker.Enclave.Responses — the storage the enclave reads from the chain through
  the untrusted host (`verify_worker_responses` in `enclave/src/lib.rs`).

  The enclave sends a list of requested keys; the host answers with a list of
  `(key, value, proof)`; `verify_worker_responses` checks each answer's proof against the
  header's state root and collects the answers into the update map.  The requested keys are
  not passed to it: the map holds the keys the host chose to answer.

  Main results:
    * `verifyWorkerResponses_ok` — an accepted response list is a fold of inserts of the
      answers, each of which carries a proof.
    * `verified_update_map` — the update map holds exactly the answered keys, each with a
      proven value, and `update_storage` sets or clears exactly those keys (then runs the
      phase hook when `CurrentPhase` changes).
    * `host_answers_unrequested_key` — a host answering one unrequested key with a proof of
      absence: the map clears that key and lacks the requested one.
-/

namespace EncointerWorker.Enclave

open EncointerWorker.Relay EncointerWorker.Stf EncointerWorker.Lib.AssocMap

variable {H A Acc : Type}

/-! ## §1. `verify_worker_responses`. -/

section Verify

variable (S : Substrate H A)

/-- The loop of `verify_worker_responses`: check each answer, insert it into the map. -/
def verifyResponsesFrom (stateRoot : H) : UpdateMap → List WorkerResponse → Except SgxStatus UpdateMap
  | updateMap, [] => .ok updateMap
  | updateMap, .chainStorage key value proof :: responses =>
    match proof with
    -- "No Storage Proof Supplied"
    | none => .error .errorUnexpected
    | some proof =>
      match S.checkProof stateRoot key proof with
      -- "Erroneous StorageProof"
      | .error _ => .error .errorUnexpected
      | .ok actual =>
        -- "Wrong storage value supplied"
        if actual ≠ value then .error .errorUnexpected
        else verifyResponsesFrom stateRoot (insert updateMap key value) responses

/-- `verify_worker_responses(responses, header)`. -/
def verifyWorkerResponses (responses : List WorkerResponse) (header : Header H) :
    Except SgxStatus UpdateMap :=
  verifyResponsesFrom S header.stateRoot [] responses

/-- The update-map entry of an answer. -/
def WorkerResponse.entry : WorkerResponse → Bytes × Option Bytes
  | .chainStorage key value _ => (key, value)

/-- An answer whose proof opens to its value under `stateRoot`. -/
def WorkerResponse.Proven (stateRoot : H) : WorkerResponse → Prop
  | .chainStorage key value proof => ∃ p, proof = some p ∧ S.checkProof stateRoot key p = .ok value

variable {S}

/-- **The spec of the loop.**  Accepted answers are all proven, and the map is their fold of
    inserts. -/
theorem verifyResponsesFrom_ok {stateRoot : H} {m₀ m : UpdateMap} {responses : List WorkerResponse}
    (h : verifyResponsesFrom S stateRoot m₀ responses = .ok m) :
    (∀ r ∈ responses, WorkerResponse.Proven S stateRoot r) ∧
      m = (responses.map WorkerResponse.entry).foldl (fun m e => insert m e.1 e.2) m₀ := by
  induction responses generalizing m₀ with
  | nil =>
    simp only [verifyResponsesFrom, Except.ok.injEq] at h
    exact ⟨by simp, h.symm⟩
  | cons r responses ih =>
    obtain ⟨key, value, proof⟩ := r
    -- each of the three checks either fails or lets the loop go on
    cases proof with
    | none => simp [verifyResponsesFrom] at h
    | some p =>
      simp only [verifyResponsesFrom] at h
      cases hcheck : S.checkProof stateRoot key p with
      | error e => simp [hcheck] at h
      | ok actual =>
        rw [hcheck] at h
        by_cases hval : actual = value
        · subst hval
          simp only [ne_eq, not_true_eq_false, ite_false] at h
          obtain ⟨hrest, hm⟩ := ih h
          refine ⟨?_, ?_⟩
          · intro r hr
            rcases List.mem_cons.mp hr with rfl | hr
            · exact ⟨p, rfl, hcheck⟩
            · exact hrest r hr
          · rw [hm]
            rfl
        · simp [hval] at h

theorem verifyWorkerResponses_ok {responses : List WorkerResponse} {header : Header H}
    {m : UpdateMap} (h : verifyWorkerResponses S responses header = .ok m) :
    (∀ r ∈ responses, WorkerResponse.Proven S header.stateRoot r) ∧
      m = (responses.map WorkerResponse.entry).foldl (fun m e => insert m e.1 e.2) [] :=
  verifyResponsesFrom_ok h

theorem entry_fst (r : WorkerResponse) : r.entry.1 = r.key := by
  cases r
  rfl

/-- The converse: proven answers are all accepted, into the fold of their inserts. -/
theorem verifyResponsesFrom_of_proven {stateRoot : H} (m₀ : UpdateMap)
    {responses : List WorkerResponse}
    (h : ∀ r ∈ responses, WorkerResponse.Proven S stateRoot r) :
    verifyResponsesFrom S stateRoot m₀ responses =
      .ok ((responses.map WorkerResponse.entry).foldl (fun m e => insert m e.1 e.2) m₀) := by
  induction responses generalizing m₀ with
  | nil => rfl
  | cons r responses ih =>
    obtain ⟨key, value, proof⟩ := r
    obtain ⟨p, rfl, hcheck⟩ := h _ (List.mem_cons_self ..)
    have hrest : ∀ r ∈ responses, WorkerResponse.Proven S stateRoot r :=
      fun r hr => h r (List.mem_cons_of_mem _ hr)
    simp only [verifyResponsesFrom, hcheck, ne_eq, not_true_eq_false, ite_false]
    exact ih _ hrest

/-- The update map of accepted answers has each key once. -/
theorem verifyWorkerResponses_nodupKeys {responses : List WorkerResponse} {header : Header H}
    {m : UpdateMap} (h : verifyWorkerResponses S responses header = .ok m) : NodupKeys m := by
  rw [(verifyWorkerResponses_ok h).2]
  exact nodupKeys_foldl_insert (m := []) List.nodup_nil _

end Verify

/-! ## §2. What an accepted answer does to the state. -/

section Update

variable {S : Substrate H A}

/-- **Host answers define the update.**  If `verify_worker_responses` accepts the host's
    answers, the update map's keys are exactly the answered keys (whatever was requested),
    each mapped to the value of an answer whose supplied proof opens to it under the header's
    state root; `update_storage` then sets or clears exactly the answered keys, and beyond
    them only the phase hook writes, and only when the map brings a new, decodable
    `CurrentPhase`. -/
theorem verified_update_map (C : Codec Acc H) (R : Runtime Acc H) [DecidableEq H]
    {responses : List WorkerResponse} {header : Header H} {m : UpdateMap}
    (h : verifyWorkerResponses S responses header = .ok m) :
    (∀ k, k ∈ keys m ↔ k ∈ responses.map WorkerResponse.key) ∧
    (∀ k v, get m k = some v → ∃ proof, .chainStorage k v (some proof) ∈ responses ∧
      S.checkProof header.stateRoot k proof = .ok v) ∧
    (∀ ext k, get (setAll ext m) k =
      if k ∈ responses.map WorkerResponse.key then (get m k).join else get ext k) ∧
    (∀ ext, updateStorage C R ext m = (phaseChange C ext m).elim (setAll ext m)
      fun phase => R.onCeremonyPhaseChange phase (setAll ext m)) ∧
    (∀ ext phase, phaseChange C ext m = some phase ↔
      ∃ v, get m (currentPhaseKey C) = some (some v) ∧ get ext (currentPhaseKey C) ≠ some v ∧
        CeremonyPhaseType.decode v = some phase) := by
  obtain ⟨hproven, hm⟩ := verifyWorkerResponses_ok h
  have hkeys : ∀ k, k ∈ keys m ↔ k ∈ responses.map WorkerResponse.key := by
    intro k
    rw [hm, mem_keys_foldl_insert, List.map_map]
    simp [entry_fst]
  have hnodup : NodupKeys m := by
    rw [hm]
    exact nodupKeys_foldl_insert (m := ([] : UpdateMap)) List.nodup_nil _
  refine ⟨hkeys, ?_, ?_, fun ext => ?_, fun ext phase => phaseChange_eq_some_iff C ext m phase⟩
  · -- a value of the map is the value of one accepted answer, with its proof
    intro k v hget
    rw [hm] at hget
    rcases get_foldl_insert hget with hnil | hmem
    · simp at hnil
    · obtain ⟨r, hr, hentry⟩ := List.mem_map.mp hmem
      obtain ⟨key, value, proof⟩ := r
      simp only [WorkerResponse.entry, Prod.mk.injEq] at hentry
      obtain ⟨rfl, rfl⟩ := hentry
      obtain ⟨p, rfl, hcheck⟩ := hproven _ hr
      exact ⟨p, hr, hcheck⟩
  · intro ext k
    rw [get_setAll hnodup]
    by_cases hk : k ∈ responses.map WorkerResponse.key
    · rw [if_pos ((hkeys k).mpr hk), if_pos hk]
    · have hk' : k ∉ keys m := fun hm' => hk ((hkeys k).mp hm')
      rw [if_neg hk', if_neg hk]
  · -- the set/clear loop, then the hook for the phase `phaseChange` names
    rw [updateStorage_eq_phaseChange]
    cases phaseChange C ext m <;> rfl

end Update

/-- A header with state root `0`. -/
def toyHeaderAtZero : Header Nat := ⟨0, 1, 0, 0, []⟩

theorem verified_update_map_toy :
    verifyWorkerResponses toySubstrate [.chainStorage [1] none (some [])] toyHeaderAtZero =
        .ok [([1], none)] ∧
      ∀ k, k ∈ keys [(([1] : Bytes), (none : Option Bytes))] ↔
        k ∈ ([.chainStorage [1] none (some [])] : List WorkerResponse).map WorkerResponse.key := by
  have h : verifyWorkerResponses toySubstrate [.chainStorage [1] none (some [])] toyHeaderAtZero =
      .ok [([1], none)] := by decide
  exact ⟨h, (verified_update_map toyCodec toyRuntime h).1⟩

/-! ## §3. A host answering another key. -/

/-- A ceremony master's `grant_reputation` call. -/
def grantCall : TrustedCallSigned Nat Nat := ⟨.ceremoniesGrantReputation 1 2 3, 0, []⟩

/-- **The host picks the keys.**  Before `grant_reputation` the enclave requests only
    `CeremonyMaster`; the host answers instead the nonce key of account `7` with a (valid)
    proof of absence.  `verify_worker_responses` accepts it, and the update clears that
    account's entry while the requested key is missing from the map. -/
theorem host_answers_unrequested_key :
    getStorageHashesToUpdate toyCodec grantCall = [ceremonyMasterKey toyCodec] ∧
    verifyWorkerResponses toySubstrate [.chainStorage (nonceKeyHash toyCodec 7) none (some [])]
        toyHeaderAtZero = .ok [(nonceKeyHash toyCodec 7, none)] ∧
    nonceKeyHash toyCodec 7 ≠ ceremonyMasterKey toyCodec ∧
    get (updateStorage toyCodec toyRuntime [(nonceKeyHash toyCodec 7, [9])]
        [(nonceKeyHash toyCodec 7, none)]) (nonceKeyHash toyCodec 7) = none := by
  decide +kernel

end EncointerWorker.Enclave
