import EncointerWorker.Enclave.Ledger

/-!
  EncointerWorker.Enclave.Persist — what a `sync_chain_relay` ECALL leaves in the seal and on
  disk (`sync_chain_relay`, `stf_post_actions` in `enclave/src/lib.rs`).

  The block loop writes shard files block by block (`update_states` and
  `handle_call_worker_xt` each call `state::write`), while the light client lives in a local
  and is sealed once, as the last step of `stf_post_actions`.  A failure at any block, or in
  the post actions, therefore leaves the sealed light client as it was, while the files keep
  what the blocks before the failure wrote.

  Main results:
    * `syncBlocks_ok_head` — a loop that returns leaves the last block of the batch as the head
      of its light client.
    * `stfPostActions_run`, `stfPostActions_error_in_place` — the post actions fail in place,
      or seal a light client with the same heads.
    * `syncBlocks_eq_error` — a failed loop ran the blocks before the failing one to the end.
    * `sync_seals_only_on_success` — a failed ECALL leaves the seal as it was and the files as
      the blocks before the failure wrote them; a successful one seals the last block of the
      batch as head.
    * `failed_batch_keeps_block_effects` — block 2 of a batch fails: the seal still points at
      genesis, while block 1's transfer is on disk.
-/

namespace EncointerWorker.Enclave

open EncointerWorker.Relay EncointerWorker.Stf EncointerWorker.Lib

variable {H A Acc : Type}

/-! ## §1. Inversion lemmas. -/

section Inversion

variable {α : Type} {x : EnclaveM H A α} {s : SgxStatus} {w w' : World H A}

theorem mapStatus_eq_ok {a : α} (h : mapStatus x s w = .ok a w') : x w = .ok a w' := by
  unfold mapStatus at h
  cases hx : x w with
  | ok b w₁ =>
    rw [hx] at h
    exact h
  | error e w₁ =>
    rw [hx] at h
    cases e <;> cases h

theorem mapStatus_eq_error {e : Fault} (h : mapStatus x s w = .error e w') :
    ∃ e', x w = .error e' w' := by
  unfold mapStatus at h
  cases hx : x w with
  | ok b w₁ =>
    rw [hx] at h
    cases h
  | error e' w₁ =>
    rw [hx] at h
    cases e' <;> cases h <;> exact ⟨_, rfl⟩

/-- A returned run of `catchStatus x d` is one of `x`, or an `Err` of `x` turned into `d`. -/
theorem catchStatus_eq_ok {d a : α} (h : catchStatus x d w = .ok a w') :
    x w = .ok a w' ∨ a = d ∧ ∃ s', x w = .error (.status s') w' := by
  unfold catchStatus at h
  cases hx : x w with
  | ok b w₁ =>
    rw [hx] at h
    exact .inl h
  | error e w₁ =>
    rw [hx] at h
    cases e with
    | status s' =>
      cases h
      exact .inr ⟨rfl, s', rfl⟩
    | panic => cases h

/-- A run that keeps the world fails in place or returns in place. -/
theorem run_of_moves_eq (hx : Moves (· = ·) x) (w : World H A) :
    (∃ e, x w = .error e w) ∨ ∃ a, x w = .ok a w := by
  have h := hx w
  cases hxw : x w with
  | ok a w₁ =>
    rw [hxw, resultState_ok] at h
    subst h
    exact .inr ⟨a, rfl⟩
  | error e w₁ =>
    rw [hxw, resultState_error] at h
    subst h
    exact .inl ⟨e, rfl⟩

end Inversion

/-! ## §2. The post actions. -/

section Post

variable (env : Env H A Acc)

/-- Queueing the confirmations fails in place, or moves no head. -/
theorem submitAll_run (v : LightValidation H A) (xts : List Bytes) (w : World H A) :
    (∃ e, submitAll v xts w = .error e w) ∨
      ∃ v', SameHeads v v' ∧ submitAll v xts w = .ok v' w := by
  induction xts generalizing v with
  | nil => exact .inr ⟨v, sameHeads_refl v, rfl⟩
  | cons xt xts ih =>
    cases hsubmit : submitXtToBeIncluded v v.numRelays xt with
    | none => exact .inl ⟨.panic, by simp only [submitAll, relayCall, hsubmit]; rfl⟩
    | some p =>
      obtain ⟨r, v₁⟩ := p
      have hsame := sameHeads_of_txs (submitXtToBeIncluded_cases hsubmit)
      cases r with
      | error e => exact .inl ⟨.panic, by simp only [submitAll, relayCall, hsubmit]; rfl⟩
      | ok u =>
        have hstep : submitAll v (xt :: xts) w = submitAll v₁ xts w := by
          simp only [submitAll, relayCall, hsubmit]
          rfl
        rw [hstep]
        rcases ih v₁ with ⟨e, he⟩ | ⟨v', hsame', hv'⟩
        · exact .inl ⟨e, he⟩
        · exact .inr ⟨v', hsame.trans hsame', hv'⟩

/-- **What `stf_post_actions` can do.**  It fails without writing anything, or it seals a
    light client with the same heads as the one it was given. -/
theorem stfPostActions_run (v : LightValidation H A) (calls : List (OpaqueCall H))
    (extrinsicsSliceLen nonce : Nat) (w : World H A) :
    (∃ e, stfPostActions env v calls extrinsicsSliceLen nonce w = .error e w) ∨
      ∃ v' out, SameHeads v v' ∧
        stfPostActions env v calls extrinsicsSliceLen nonce w = .ok out { w with sealedRelay := v' } := by
  simp only [stfPostActions, run_bind]
  rcases run_of_moves_eq (moves_composeCalls env v nonce calls) w with ⟨e, he⟩ | ⟨xts, hxts⟩
  · rw [he]
    exact .inl ⟨e, rfl⟩
  simp only [hxts]
  rcases submitAll_run v xts w with ⟨e, he⟩ | ⟨v', hsame, hv'⟩
  · rw [he]
    exact .inl ⟨e, rfl⟩
  simp only [hv']
  rcases run_of_moves_eq (moves_writeSliceAndWhitespacePad extrinsicsSliceLen
      (env.encodeExtrinsics xts)) w with ⟨e, he⟩ | ⟨out, hout⟩
  · rw [he]
    exact .inl ⟨e, rfl⟩
  rw [hout]
  exact .inr ⟨v', out, hsame, rfl⟩

/-- Failed post actions, with their status mapped as `sync_chain_relay` maps it, leave the
    world where the loop left it. -/
theorem stfPostActions_error_in_place (v : LightValidation H A) (calls : List (OpaqueCall H))
    (extrinsicsSliceLen nonce : Nat) {w w' : World H A} {e : Fault}
    (h : mapStatus (stfPostActions env v calls extrinsicsSliceLen nonce) .errorUnexpected w =
      .error e w') : w' = w := by
  obtain ⟨e', h⟩ := mapStatus_eq_error h
  rcases stfPostActions_run env v calls extrinsicsSliceLen nonce w with ⟨e'', he⟩ | ⟨v', out, -, he⟩
  · rw [he] at h
    cases h
    rfl
  · rw [he] at h
    cases h

end Post

/-! ## §3. The light client the loop returns. -/

section Loop

variable [DecidableEq H] (env : Env H A Acc)

/-- An accepted header is the head of its relay, and the relay count stays. -/
theorem submitSimpleHeader_head {v v' : LightValidation H A} {relayId : Nat} {header : Header H}
    {grandpaProof : Option Bytes}
    (h : submitSimpleHeader env.S v relayId header grandpaProof = some (.ok (), v')) :
    v'.numRelays = v.numRelays ∧ latestHeader v' relayId = .ok header := by
  obtain ⟨relay, hrelay, hlast, -⟩ := submitSimpleHeader_isHead env.S h
  refine ⟨?_, by simp [latestHeader, hrelay, hlast]⟩
  obtain ⟨_, -, -, hcases⟩ := submitSimpleHeader_ok env.S h
  rcases hcases with ⟨-, rfl⟩ | ⟨j, -, -, -, rfl⟩ <;> rfl

/-- **The loop's light client has the last block as head.**  By induction on the batch: each
    accepted block becomes the head, and the next block's inclusion check moves no head. -/
theorem syncBlocks_ok_head (blocks : List (SignedBlock H)) :
    ∀ (v : LightValidation H A) calls w v' calls' w',
      syncBlocks env v calls blocks w = .ok (v', calls') w' →
      (blocks = [] → v' = v) ∧
        ∀ b ∈ blocks.getLast?, latestHeader v' v'.numRelays = .ok b.block.header := by
  induction blocks with
  | nil =>
    intro v calls w v' calls' w' h
    obtain ⟨hv, -, -⟩ := syncBlocks_nil_ok env h
    exact ⟨fun _ => hv, by simp⟩
  | cons b bs ih =>
    intro v calls w v' calls' w' h
    obtain ⟨_, v₂, _, c, w₂, -, hsub, -, -, h⟩ := syncBlocks_cons_ok env h
    obtain ⟨hnil, hlast⟩ := ih v₂ (calls ++ c) w₂ v' calls' w' h
    refine ⟨fun hb => (List.cons_ne_nil b bs hb).elim, fun b' hb' => ?_⟩
    cases bs with
    | nil =>
      -- the block is the last one: its header is the head `submit_simple_header` left
      have hb : b' = b := by simpa using hb'.symm
      subst hb
      obtain ⟨hnum, hhead⟩ := submitSimpleHeader_head env hsub
      rw [hnil rfl, hnum]
      exact hhead
    | cons b'' bs' => exact hlast b' (by simpa using hb')

/-- The loop over `b :: bs` is the loop over `b` alone, then over `bs` from the light client
    and confirmations `b` left.  The same split as `syncBlocks_cons`: a relay call that fails
    ends both sides where they stand. -/
theorem syncBlocks_cons_eq_bind (v : LightValidation H A) (calls : List (OpaqueCall H))
    (b : SignedBlock H) (bs : List (SignedBlock H)) :
    syncBlocks env v calls (b :: bs) =
      (syncBlocks env v calls [b] >>= fun p => syncBlocks env p.1 p.2 bs) := by
  cases hcheck : checkXtInclusion env.S v v.numRelays b.block with
  | none =>
    simp only [syncBlocks, relayCall, hcheck, unwrapOption_none_bind]
    rfl
  | some p =>
    obtain ⟨r, v₁⟩ := p
    cases r with
    | error e =>
      simp only [syncBlocks, relayCall, hcheck, unwrapOption_some_bind, unwrapExcept_error_bind]
      rfl
    | ok u =>
      cases hsub : submitSimpleHeader env.S v₁ v₁.numRelays b.block.header b.justification with
      | none =>
        simp only [syncBlocks, relayCall, hcheck, hsub, unwrapOption_some_bind,
          unwrapExcept_ok_bind, unwrapOption_none_bind]
        rfl
      | some q =>
        obtain ⟨r₂, v₂⟩ := q
        cases r₂ with
        | error e =>
          simp only [syncBlocks, relayCall, hcheck, hsub, unwrapOption_some_bind,
            unwrapExcept_ok_bind]
          rfl
        | ok u₂ =>
          -- the accepted block's steps, then the rest of the batch
          simp only [syncBlocks, relayCall, hcheck, hsub, unwrapOption_some_bind,
            unwrapExcept_ok_bind, bind_assoc, pure_bind]

/-- **Where a failed loop failed.**  A run of the loop that fails ran the blocks before some
    block `b` of the batch to the end, and then failed in `b`, where the run stops.  By
    induction on the batch. -/
theorem syncBlocks_eq_error : ∀ (blocks : List (SignedBlock H)) (v : LightValidation H A)
    (calls : List (OpaqueCall H)) (w : World H A) {e : Fault} {w' : World H A},
    syncBlocks env v calls blocks w = .error e w' →
    ∃ pre b post vₖ callsₖ wₖ, blocks = pre ++ b :: post ∧
      syncBlocks env v calls pre w = .ok (vₖ, callsₖ) wₖ ∧
      syncBlocks env vₖ callsₖ [b] wₖ = .error e w'
  | [], _, _, _, _, _, h => by cases h
  | b :: bs, v, calls, w, e, w', h => by
    rw [syncBlocks_cons_eq_bind] at h
    rcases bind_eq_error h with hb | ⟨p, w₁, hb, hrest⟩
    · -- `b` itself failed
      exact ⟨[], b, bs, v, calls, w, rfl, rfl, hb⟩
    · -- `b` ran to the end; the failure is further on
      obtain ⟨pre, b', post, vₖ, callsₖ, wₖ, rfl, hpre, hfail⟩ :=
        syncBlocks_eq_error bs p.1 p.2 w₁ hrest
      refine ⟨b :: pre, b', post, vₖ, callsₖ, wₖ, rfl, ?_, hfail⟩
      rw [syncBlocks_cons_eq_bind, run_bind_eq, hb]
      exact hpre

/-- `sync_chain_relay` runs the loop on the light client it unsealed. -/
theorem syncChainRelay_eq (blocks : List (SignedBlock H)) (nonce extrinsicsSliceLen : Nat)
    (w : World H A) :
    syncChainRelay env blocks nonce extrinsicsSliceLen w = (do
      let (validator, calls) ← syncBlocks env w.sealedRelay [] blocks
      mapStatus (stfPostActions env validator calls extrinsicsSliceLen nonce) .errorUnexpected) w :=
  rfl

end Loop

/-! ## §4. The seal. -/

/-- **Only a successful ECALL seals, while every block writes.**  A run of
    `sync_chain_relay` that fails, at any block or in the post actions, leaves the sealed light
    client as it was.  Its world is not rolled back: it is the world the loop left after
    running the blocks before the failing block `b` to the end (their `update_states` and
    `call_worker` extrinsics written to the shard files), and then `b` up to its failure; or,
    for a failure in the post actions, the world the loop left after the whole batch.  A run
    that succeeds seals a light client whose head is the last block of the batch. -/
theorem sync_seals_only_on_success [DecidableEq H] (env : Env H A Acc)
    (blocks : List (SignedBlock H)) (nonce extrinsicsSliceLen : Nat) (w : World H A) :
    (∀ e w', syncChainRelay env blocks nonce extrinsicsSliceLen w = .error e w' →
        w'.sealedRelay = w.sealedRelay) ∧
      (∀ e w', syncChainRelay env blocks nonce extrinsicsSliceLen w = .error e w' →
        (∃ pre b post v calls wₖ, blocks = pre ++ b :: post ∧
          syncBlocks env w.sealedRelay [] pre w = .ok (v, calls) wₖ ∧
          syncBlocks env v calls [b] wₖ = .error e w') ∨
        ∃ v calls, syncBlocks env w.sealedRelay [] blocks w = .ok (v, calls) w') ∧
      ∀ out w', syncChainRelay env blocks nonce extrinsicsSliceLen w = .ok out w' →
        ∀ b ∈ blocks.getLast?, latestHeader w'.sealedRelay w'.sealedRelay.numRelays = .ok b.block.header := by
  have hloop := moves_syncBlocks_sealed env blocks w.sealedRelay [] w
  rw [syncChainRelay_eq]
  refine ⟨?_, ?_, ?_⟩
  · intro e w' h
    rcases bind_eq_error h with h | ⟨p, w₁, hp, h⟩
    · -- the loop failed; it keeps the light client in a local
      rw [h] at hloop
      exact hloop
    · -- the post actions failed, before their seal
      rw [hp] at hloop
      obtain rfl := stfPostActions_error_in_place env p.1 p.2 extrinsicsSliceLen nonce h
      exact hloop
  · intro e w' h
    rcases bind_eq_error h with h | ⟨p, w₁, hp, h⟩
    · -- the loop failed at some block, after running the blocks before it
      exact .inl (syncBlocks_eq_error env blocks _ _ w h)
    · -- the post actions fail where the loop left the world
      obtain rfl := stfPostActions_error_in_place env p.1 p.2 extrinsicsSliceLen nonce h
      exact .inr ⟨p.1, p.2, hp⟩
  · intro out w' h b hb
    obtain ⟨⟨v', calls⟩, w₁, hp, h⟩ := bind_eq_ok h
    have h := mapStatus_eq_ok h
    rcases stfPostActions_run env v' calls extrinsicsSliceLen nonce w₁ with ⟨e, he⟩ | ⟨v'', out', hsame, he⟩
    · rw [he] at h
      cases h
    · rw [he] at h
      cases h
      -- the sealed light client has the heads of the loop's
      show latestHeader v'' v''.numRelays = _
      rw [hsame.1, hsame.2]
      exact (syncBlocks_ok_head env blocks _ _ _ _ _ _ hp).2 b hb

/-- Block `1` with one extrinsic, then block `5`, which does not build on it. -/
def brokenBatch : List (SignedBlock Nat) :=
  [⟨⟨Schedule.chainHeader 1 [], [[0]]⟩, none⟩, ⟨⟨Schedule.chainHeader 5 [], []⟩, none⟩]

/-- **A failed batch keeps the effects of its first block.**  Block `1` is imported and its
    transfer moves `5` of account `1`'s `10` to account `2` in shard `1`'s state file; block
    `5` fails the parent check, so the ECALL returns an error and the seal still has header
    `0` as head.  A retry runs block `1`'s transfer a second time. -/
theorem failed_batch_keeps_block_effects :
    resultError (syncChainRelay (ledgerEnv transferCall) brokenBatch 0 16 fundedWorld) =
      some (.status .errorUnexpected) ∧
    latestHeader (resultState (syncChainRelay (ledgerEnv transferCall) brokenBatch 0 16
      fundedWorld)).sealedRelay 1 = .ok (Schedule.chainHeader 0 []) ∧
    (resultValue (stateLoad (ledgerEnv transferCall) 1 fundedWorld)).map
      (fun st => (balanceOf st 1 1, balanceOf st 1 2)) = some (10, 0) ∧
    (resultValue (stateLoad (ledgerEnv transferCall) 1 (resultState (syncChainRelay
      (ledgerEnv transferCall) brokenBatch 0 16 fundedWorld)))).map
      (fun st => (balanceOf st 1 1, balanceOf st 1 2)) = some (5, 5) := by
  decide +kernel

end EncointerWorker.Enclave
