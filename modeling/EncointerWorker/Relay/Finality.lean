import EncointerWorker.Relay.Justification
import EncointerWorker.Relay.Invariant

/-!
  EncointerWorker.Relay.Finality — the relay's finality check with the GRANDPA justification
  check of `justification.rs` in place of the `Substrate` verdict.

  The relay modules take `decode_and_verify_finalizes` as a function of `Substrate` that
  answers yes or no.  Here the answer is the one the code computes: `verify_grandpa_proof`
  accepts exactly when `GrandpaJustification::decode_and_verify_finalizes` returns `Ok`.  A walk
  of `ancestry` that does not end within the fuel accepts nothing: the enclave would loop
  there and never finalize.  With that verdict, a header is finalized only by a justification
  that decodes from the bytes given, commits to exactly that header and number, is validated
  by `finality-grandpa` for the relay's voters, carries each voter's signature over its
  precommit, the round and the relay's set id, and uses each of its ancestry headers on a
  walk from a precommit target down to the commit target.

  Main results:
    * `visitPrecommits_signed` — the precommit loop accepts only precommits whose signature
      verifies.
    * `verifyFinalizes_eq_true` — what the relay's verdict says about the justification.
    * `submit_simple_header_finalizes_only_justified` — `submit_simple_header` finalizes a
      header only by a justification of it for the set the schedule leaves current.
-/

namespace EncointerWorker.Relay

open EncointerWorker.Lib

variable {H A Sig : Type}

/-! ## §1. The verdict. -/

section Verdict

variable [DecidableEq H] (E : GrandpaEnv H A Sig)

/-- `verify_grandpa_proof`'s verdict with the check of `justification.rs`: `Ok` accepts; an
    `Err`, or an `ancestry` walk that does not end within `fuel` steps, does not. -/
def GrandpaEnv.verifyFinalizes (fuel : Nat) (encoded : Bytes) (hash : H) (number setId : Nat)
    (voters : AuthorityList A) : Bool :=
  match GrandpaJustification.decodeAndVerifyFinalizes E encoded (hash, number) setId voters
      fuel with
  | some (.ok _) => true
  | _ => false

/-- What a justification proves about `header`: its commit is for the header and its number,
    `finality-grandpa` validates the commit for `voters`, each precommit carries its voter's
    signature over the precommit, the round and `setId`, and each ancestry header lies on the
    path from some other precommit target down to the commit target. -/
structure Finalizes (j : GrandpaJustification H A Sig) (header : Header H) (setId : Nat)
    (voters : AuthorityList A) : Prop where
  target : j.commit.targetHash = E.hash header
  number : j.commit.targetNumber = header.number
  commit : E.validateCommit j.commit voters (AncestryChain.new E.hash j.votesAncestries) = true
  signed : ∀ signed ∈ j.commit.precommits,
    E.verifySig signed.signature (localizedPayloadWithBuffer E j.round setId signed.precommit)
      signed.id = true
  on_paths : ∀ h ∈ j.votesAncestries, ∃ signed ∈ j.commit.precommits,
    signed.precommit.targetHash ≠ j.commit.targetHash ∧
    ∃ ps, Trail (AncestryChain.new E.hash j.votesAncestries).parentOf j.commit.targetHash
      signed.precommit.targetHash (ps ++ [j.commit.targetHash]) ∧ E.hash h ∈ ps

end Verdict

/-! ## §2. What the check accepts. -/

section Accepts

variable [DecidableEq H] (E : GrandpaEnv H A Sig) (j : GrandpaJustification H A Sig)
  (setId fuel : Nat)

/-- **The precommit loop accepts only signed precommits.**  By induction on the precommits:
    an invalid signature returns at once, and every other branch goes on with the rest. -/
theorem visitPrecommits_signed (ancestryChain : AncestryChain H) :
    ∀ {precommits : List (SignedPrecommit H A Sig)} {visited V : Finset H},
      j.visitPrecommits E setId fuel ancestryChain precommits visited = some (.ok V) →
      ∀ signed ∈ precommits, E.verifySig signed.signature
        (localizedPayloadWithBuffer E j.round setId signed.precommit) signed.id = true
  | [], _, _, _ => by
    intro signed hmem
    cases hmem
  | first :: precommits, visited, V, h => by
    intro signed hmem
    unfold GrandpaJustification.visitPrecommits at h
    cases hsig : checkMessageSigWithBuffer E first.precommit first.id first.signature j.round
        setId with
    | error u =>
      rw [hsig] at h
      cases h
    | ok u =>
      rw [hsig] at h
      rcases List.mem_cons.mp hmem with rfl | hrest
      · -- the head's own check passed
        unfold checkMessageSigWithBuffer at hsig
        by_cases hv : E.verifySig signed.signature
            (localizedPayloadWithBuffer E j.round setId signed.precommit) signed.id = true
        · exact hv
        · rw [if_neg hv] at hsig
          cases hsig
      · -- the rest is checked by the loop it continues with
        dsimp only at h
        by_cases htarget : j.commit.targetHash = first.precommit.targetHash
        · rw [if_pos htarget] at h
          exact visitPrecommits_signed ancestryChain h signed hrest
        · rw [if_neg htarget] at h
          cases hanc :
              ancestryChain.ancestry j.commit.targetHash first.precommit.targetHash fuel with
          | none =>
            rw [hanc] at h
            cases h
          | some r =>
            rw [hanc] at h
            cases r with
            | error e => cases h
            | ok route => exact visitPrecommits_signed ancestryChain h signed hrest

/-- An accepted `verify` proves everything `Finalizes` asks of the commit. -/
theorem finalizes_of_verify {voters : AuthorityList A} {header : Header H}
    (h : j.verify E setId voters fuel = some (.ok ()))
    (htarget : j.commit.targetHash = E.hash header)
    (hnumber : j.commit.targetNumber = header.number) :
    Finalizes E j header setId voters := by
  obtain ⟨hcommit, hvisit⟩ := verify_eq_ok E j setId fuel h
  exact ⟨htarget, hnumber, hcommit, visitPrecommits_signed E j setId fuel _ hvisit,
    verify_headers_on_paths E j setId fuel h⟩

/-- `decode_and_verify_finalizes` returns `Ok` only for the justification the bytes decode
    to, when its commit is for the target and `verify` accepts it. -/
theorem decodeAndVerifyFinalizes_eq_ok {encoded : Bytes} {target : H × Nat}
    {voters : AuthorityList A} {j' : GrandpaJustification H A Sig}
    (h : GrandpaJustification.decodeAndVerifyFinalizes E encoded target setId voters fuel =
      some (.ok j')) :
    E.decode encoded = some j' ∧ (j'.commit.targetHash, j'.commit.targetNumber) = target ∧
      j'.verify E setId voters fuel = some (.ok ()) := by
  unfold GrandpaJustification.decodeAndVerifyFinalizes at h
  cases hdecode : E.decode encoded with
  | none =>
    rw [hdecode] at h
    cases h
  | some justification =>
    rw [hdecode] at h
    dsimp only at h
    by_cases htarget :
        (justification.commit.targetHash, justification.commit.targetNumber) = target
    · rw [if_neg (not_not.mpr htarget)] at h
      -- `verify(..).map(|_| justification)`
      cases hverify : justification.verify E setId voters fuel with
      | none =>
        rw [hverify] at h
        cases h
      | some r =>
        rw [hverify] at h
        cases r with
        | error e => cases h
        | ok u =>
          have hj : justification = j' := Except.ok.inj (Option.some.inj h)
          subst hj
          exact ⟨rfl, htarget, hverify⟩
    · rw [if_pos htarget] at h
      cases h

/-- **The relay's verdict, read back**: it accepts `encoded` for `(hash, number)` only if the
    bytes decode to a justification of a header with that hash and number. -/
theorem verifyFinalizes_eq_true {encoded : Bytes} {header : Header H}
    {voters : AuthorityList A}
    (h : E.verifyFinalizes fuel encoded (E.hash header) header.number setId voters = true) :
    ∃ j, E.decode encoded = some j ∧ Finalizes E j header setId voters := by
  unfold GrandpaEnv.verifyFinalizes at h
  split at h
  · rename_i j' hok
    obtain ⟨hdecode, htarget, hverify⟩ := decodeAndVerifyFinalizes_eq_ok E setId fuel hok
    simp only [Prod.mk.injEq] at htarget
    exact ⟨j', hdecode, finalizes_of_verify E j' setId fuel hverify htarget.1 htarget.2⟩
  · cases h

end Accepts

/-! ## §3. The relay. -/

section Relay

variable [DecidableEq H] (S : Substrate H A) (E : GrandpaEnv H A Sig) (fuel : Nat)

/-- **`submit_simple_header` finalizes only justified headers.**  Let the relay's verdict be
    the justification check of `justification.rs`, with the same header hash.  If
    `submit_simple_header` accepts a header with a justification, then the header is a child
    of the relay's head, the justification decodes from the bytes given, and it is a
    justification of the header for the validator set and set id that the schedule's step
    leaves current; the header becomes the head, with the queued hashes and its own hash
    finalized. -/
theorem submit_simple_header_finalizes_only_justified
    (hverdict : S.verifyFinalizes = E.verifyFinalizes fuel) (hhash : E.hash = S.hash)
    {v v' : LightValidation H A} {relayId : Nat} {header : Header H} {encoded : Bytes}
    (h : submitSimpleHeader S v relayId header (some encoded) = some (.ok (), v')) :
    ∃ relay j, v.trackedRelays relayId = some relay ∧
      S.hash relay.lastFinalizedBlockHeader = header.parentHash ∧ E.decode encoded = some j ∧
      Finalizes E j header (applyValidatorSetChange relay header).currentValidatorSetId
        (applyValidatorSetChange relay header).currentValidatorSet ∧
      v' = v.setRelay relayId ((applyValidatorSetChange relay header).acceptJustified S header
        (applyValidatorSetChange relay header).currentValidatorSet
        (applyValidatorSetChange relay header).currentValidatorSetId) := by
  obtain ⟨relay, hrelay, hparent, hcases⟩ := submitSimpleHeader_ok S h
  rcases hcases with ⟨hnone, -⟩ | ⟨j', hj', -, hfin, hv'⟩
  · cases hnone
  · -- the bytes verified are the ones given
    cases hj'
    rw [hverdict, ← hhash] at hfin
    obtain ⟨j, hdecode, hfinalizes⟩ := verifyFinalizes_eq_true E _ fuel hfin
    exact ⟨relay, j, hrelay, hparent, hdecode, hfinalizes, hv'⟩

end Relay

/-! ## §4. A justified header. -/

open EncointerWorker.Relay.Invariant

/-- A justification of header `1`: one precommit for it, in round `0`, no ancestry headers. -/
def oneVoteJustification : GrandpaJustification Nat Nat Nat :=
  ⟨0, ⟨1, 1, [⟨⟨1, 1⟩, 0, 0⟩]⟩, []⟩

/-- Headers hash to their number, the bytes `[9]` decode to `oneVoteJustification`, and
    every commit and signature verifies. -/
def toyGrandpa : GrandpaEnv Nat Nat Nat where
  hash header := header.number
  decode bytes := if bytes = [9] then some oneVoteJustification else none
  validateCommit _ _ _ := true
  encodeLocalized _ _ _ := []
  verifySig _ _ _ := true

/-- `toySubstrate` with the verdict of `toyGrandpa`. -/
def grandpaSubstrate : Substrate Nat Nat :=
  { toySubstrate with verifyFinalizes := toyGrandpa.verifyFinalizes 1 }

/-- A light client tracking relay `1` from header `0`. -/
def genesisValidation : LightValidation Nat Nat :=
  { (LightValidation.new : LightValidation Nat Nat).setRelay 1
      (RelayState.new toySubstrate.hash (toyHeader 0 0) []) with numRelays := 1 }

/-- `submit_simple_header` of header `1` with the bytes `[9]`: the one vote finalizes it. -/
theorem header_finalized_by_one_vote :
    grandpaSubstrate.verifyFinalizes = toyGrandpa.verifyFinalizes 1 ∧
      toyGrandpa.hash = grandpaSubstrate.hash ∧
      ∃ v', submitSimpleHeader grandpaSubstrate genesisValidation 1 (toyHeader 1 0) (some [9]) =
        some (.ok (), v') ∧
      ∃ relay j, genesisValidation.trackedRelays 1 = some relay ∧
        grandpaSubstrate.hash relay.lastFinalizedBlockHeader = (toyHeader 1 0).parentHash ∧
        toyGrandpa.decode [9] = some j ∧
        Finalizes toyGrandpa j (toyHeader 1 0)
          (applyValidatorSetChange relay (toyHeader 1 0)).currentValidatorSetId
          (applyValidatorSetChange relay (toyHeader 1 0)).currentValidatorSet ∧
        v' = genesisValidation.setRelay 1
          ((applyValidatorSetChange relay (toyHeader 1 0)).acceptJustified grandpaSubstrate
            (toyHeader 1 0) (applyValidatorSetChange relay (toyHeader 1 0)).currentValidatorSet
            (applyValidatorSetChange relay (toyHeader 1 0)).currentValidatorSetId) :=
  ⟨rfl, rfl, _, rfl,
    submit_simple_header_finalizes_only_justified grandpaSubstrate toyGrandpa 1 rfl rfl rfl⟩

end EncointerWorker.Relay
