import Mathlib.Data.Finset.Basic
import EncointerWorker.Lib.AssocMap
import EncointerWorker.Lib.Chase
import EncointerWorker.Relay.Types

/-!
  EncointerWorker.Relay.Justification — the GRANDPA justification check of the relay
  (`enclave/chain_relay/src/justification.rs`).

  A justification carries a commit (a target and the voters' signed precommits) and
  `votes_ancestries`, headers meant to route every precommit target down to the commit
  target.  `verify` has `finality-grandpa` validate the commit over an `AncestryChain` of
  those headers, checks each precommit's signature, walks every precommit target other than
  the commit target down to it through the headers, and accepts only if the hashes visited
  are exactly the hashes of `votes_ancestries`.

  `AncestryChain::ancestry` is a `loop` that follows parent hashes through the header map
  until it meets the base; on a map with a cycle it never exits, so the model bounds it by
  fuel, `none` being the fuel running out.  The walk it runs is `Lib.Trail` of the map's
  parent function: the points of the trail before the base are the hashes it looks up.

  What the code calls outside this repository (SCALE decoding, `validate_commit`, the
  encoding of a signed message, ed25519 verification) is the record `GrandpaEnv`.

  Main results:
    * `ancestry_eq_ok`, `ancestry_eq_error`, `ancestry_eq_none` — the three ends of the
      loop, for any map and any fuel, read off the walk.
    * `ancestry_returns_interior` — on the map of `AncestryChain::new`, a walk that does not
      revisit a hash ends within one more step than there are headers; `Ok(route)` exactly
      when it reaches the base, the route the hashes looked up after the block; otherwise
      `Err(NotDescendent)`.  And `verify` accepts only if every header of `votes_ancestries`
      lies on the path from some precommit target down to, but excluding, the commit target.
-/

namespace EncointerWorker.Relay

open EncointerWorker.Lib
open EncointerWorker.Lib.AssocMap (Map get keys ofList get_eq_none_of_not_mem
  mem_keys_foldl_insert)

variable {H A Sig : Type}

/-! ## §1. Justifications. -/

/-- `finality_grandpa::Precommit`. -/
structure Precommit (H : Type) where
  targetHash : H
  targetNumber : Nat
  deriving DecidableEq, Repr

/-- `finality_grandpa::SignedPrecommit`. -/
structure SignedPrecommit (H A Sig : Type) where
  precommit : Precommit H
  signature : Sig
  id : A

/-- `finality_grandpa::Commit`. -/
structure Commit (H A Sig : Type) where
  targetHash : H
  targetNumber : Nat
  precommits : List (SignedPrecommit H A Sig)

/-- `GrandpaJustification`. -/
structure GrandpaJustification (H A Sig : Type) where
  round : Nat
  commit : Commit H A Sig
  votesAncestries : List (Header H)

/-- `finality_grandpa::Error`, of which `ancestry` returns `NotDescendent` only. -/
inductive GrandpaError where
  | notDescendent
  deriving DecidableEq, Repr

/-- `JustificationError` (`error.rs`). -/
inductive JustificationError where
  | justificationDecode
  | badJustification (msg : String)
  deriving DecidableEq, Repr

/-- `AncestryChain`: the justification's headers by hash.  The Rust field is `ancestry`, the
    name the model keeps for the `Chain::ancestry` method. -/
structure AncestryChain (H : Type) where
  headers : Map H (Header H)

/-- What `justification.rs` calls outside this repository. -/
structure GrandpaEnv (H A Sig : Type) where
  /-- `Header::hash`. -/
  hash : Header H → H
  /-- `GrandpaJustification::decode`. -/
  decode : Bytes → Option (GrandpaJustification H A Sig)
  /-- `finality_grandpa::validate_commit(&commit, voters, &ancestry_chain)` is `Ok` with a
      `ghost`. -/
  validateCommit : Commit H A Sig → AuthorityList A → AncestryChain H → Bool
  /-- `(message, round, set_id).encode_to(buf)` for `Message::Precommit(precommit)`. -/
  encodeLocalized : Precommit H → Nat → Nat → Bytes
  /-- `AuthorityPair::verify(signature, buf, &public)`. -/
  verifySig : Sig → Bytes → A → Bool

/-! ## §2. The code. -/

section Code

variable [DecidableEq H]

/-- `AncestryChain::new`: the headers `collect`ed into a `HashMap` under their hashes, a later
    header under a repeated hash replacing an earlier one. -/
def AncestryChain.new (hash : Header H → H) (ancestry : List (Header H)) : AncestryChain H :=
  ⟨ofList (ancestry.map fun h => (hash h, h))⟩

/-- `Chain::ancestry(base, block)` of `AncestryChain`, its `loop` bounded by `fuel`; `none` is
    the fuel running out. -/
def AncestryChain.ancestry (c : AncestryChain H) (base block : H) (fuel : Nat) :
    Option (Except GrandpaError (List H)) :=
  match loop fuel block [] with
  | none => none
  | some (.error e) => some (.error e)
  -- `route.pop()`: remove the base
  | some (.ok route) => some (.ok route.dropLast)
where
  /-- The `loop`, `currentHash` its cursor: `Ok` is its `break`, `Err` the `return`. -/
  loop : Nat → H → List H → Option (Except GrandpaError (List H))
    | 0, _, _ => none
    | fuel + 1, currentHash, route =>
      if currentHash = base then some (.ok route)
      else
        match get c.headers currentHash with
        | some currentHeader =>
          loop fuel currentHeader.parentHash (route ++ [currentHeader.parentHash])
        | none => some (.error .notDescendent)

/-- One step of the walk `ancestry` runs: the parent hash of the header under a hash. -/
def AncestryChain.parentOf (c : AncestryChain H) (h : H) : Option H :=
  (get c.headers h).map Header.parentHash

/-- `communication::localized_payload_with_buffer`: the buffer, cleared, then holding
    `(message, round, set_id)` encoded. -/
def localizedPayloadWithBuffer (E : GrandpaEnv H A Sig) (round setId : Nat)
    (message : Precommit H) : Bytes :=
  E.encodeLocalized message round setId

/-- `communication::check_message_sig_with_buffer`. -/
def checkMessageSigWithBuffer (E : GrandpaEnv H A Sig) (message : Precommit H) (id : A)
    (signature : Sig) (round setId : Nat) : Except Unit Unit :=
  if E.verifySig signature (localizedPayloadWithBuffer E round setId message) id then .ok ()
  else .error ()

/-- The `for signed in self.commit.precommits.iter()` loop of `verify`, with its set
    `visitedHashes`; `none` is an `ancestry` that does not exit within `fuel`. -/
def GrandpaJustification.visitPrecommits (E : GrandpaEnv H A Sig)
    (j : GrandpaJustification H A Sig) (setId fuel : Nat) (ancestryChain : AncestryChain H) :
    List (SignedPrecommit H A Sig) → Finset H → Option (Except JustificationError (Finset H))
  | [], visitedHashes => some (.ok visitedHashes)
  | signed :: precommits, visitedHashes =>
    match checkMessageSigWithBuffer E signed.precommit signed.id signed.signature j.round
        setId with
    | .error () => some (.error (.badJustification
        "invalid signature for precommit in grandpa justification"))
    | .ok () =>
      if j.commit.targetHash = signed.precommit.targetHash then
        visitPrecommits E j setId fuel ancestryChain precommits visitedHashes
      else
        match ancestryChain.ancestry j.commit.targetHash signed.precommit.targetHash fuel with
        | none => none
        | some (.ok route) =>
          -- "ancestry starts from parent hash but the precommit target hash has been visited"
          visitPrecommits E j setId fuel ancestryChain precommits
            (route.foldl (fun s hash => insert hash s)
              (insert signed.precommit.targetHash visitedHashes))
        | some (.error _) => some (.error (.badJustification
            "invalid precommit ancestry proof in grandpa justification"))

/-- `GrandpaJustification::verify(set_id, voters)`. -/
def GrandpaJustification.verify (E : GrandpaEnv H A Sig) (j : GrandpaJustification H A Sig)
    (setId : Nat) (voters : AuthorityList A) (fuel : Nat) :
    Option (Except JustificationError Unit) :=
  let ancestryChain := AncestryChain.new E.hash j.votesAncestries
  if E.validateCommit j.commit voters ancestryChain = false then
    some (.error (.badJustification "invalid commit in grandpa justification"))
  else
    match j.visitPrecommits E setId fuel ancestryChain j.commit.precommits ∅ with
    | none => none
    | some (.error e) => some (.error e)
    | some (.ok visitedHashes) =>
      let ancestryHashes := (j.votesAncestries.map E.hash).toFinset
      if visitedHashes ≠ ancestryHashes then
        some (.error (.badJustification
          "invalid precommit ancestries in grandpa justification with unused headers"))
      else some (.ok ())

/-- `GrandpaJustification::decode_and_verify_finalizes(encoded, finalized_target, set_id,
    voters)`. -/
def GrandpaJustification.decodeAndVerifyFinalizes (E : GrandpaEnv H A Sig) (encoded : Bytes)
    (finalizedTarget : H × Nat) (setId : Nat) (voters : AuthorityList A) (fuel : Nat) :
    Option (Except JustificationError (GrandpaJustification H A Sig)) :=
  match E.decode encoded with
  | none => some (.error .justificationDecode)
  | some justification =>
    if (justification.commit.targetHash, justification.commit.targetNumber) ≠ finalizedTarget
    then some (.error (.badJustification "invalid commit target in grandpa justification"))
    else (justification.verify E setId voters fuel).map fun r => r.map fun _ => justification

end Code

/-! ## §3. The walk of `ancestry`. -/

section Walk

variable [DecidableEq H] (c : AncestryChain H) (base : H)

theorem parentOf_of_get {h : H} {header : Header H} (hget : get c.headers h = some header) :
    c.parentOf h = some header.parentHash := by
  simp [AncestryChain.parentOf, hget]

theorem mem_keys_of_parentOf {h p : H} (hp : c.parentOf h = some p) : h ∈ keys c.headers := by
  by_contra hk
  rw [AncestryChain.parentOf, get_eq_none_of_not_mem hk] at hp
  cases hp

/-- **One turn of the loop**: at the base it breaks; off the map it returns `Err`; otherwise it
    steps to the parent and pushes it. -/
theorem ancestry_loop_succ (fuel : Nat) (cur : H) (route : List H) :
    (cur = base ∧ AncestryChain.ancestry.loop c base (fuel + 1) cur route = some (.ok route)) ∨
    (cur ≠ base ∧ c.parentOf cur = none ∧
      AncestryChain.ancestry.loop c base (fuel + 1) cur route = some (.error .notDescendent)) ∨
    (∃ p, cur ≠ base ∧ c.parentOf cur = some p ∧
      AncestryChain.ancestry.loop c base (fuel + 1) cur route =
        AncestryChain.ancestry.loop c base fuel p (route ++ [p])) := by
  rw [AncestryChain.ancestry.loop.eq_2]
  by_cases hcur : cur = base
  · exact .inl ⟨hcur, if_pos hcur⟩
  · rw [if_neg hcur]
    cases hget : get c.headers cur with
    | none => exact .inr (.inl ⟨hcur, by simp [AncestryChain.parentOf, hget], rfl⟩)
    | some header => exact .inr (.inr ⟨header.parentHash, hcur, parentOf_of_get c hget, rfl⟩)

/-- **The loop breaks only at the base**, having walked a trail there and pushed every point
    of it after the start. -/
theorem ancestry_loop_eq_ok : ∀ {fuel : Nat} {cur : H} {route r : List H},
    AncestryChain.ancestry.loop c base fuel cur route = some (.ok r) →
      ∃ ps, Trail c.parentOf base cur (ps ++ [base]) ∧ r = route ++ (ps ++ [base]).tail
  | 0, _, _, _, h => by cases h
  | fuel + 1, cur, route, r, h => by
    rcases ancestry_loop_succ c base fuel cur route with
      ⟨rfl, hstep⟩ | ⟨-, -, hstep⟩ | ⟨p, hcur, hp, hstep⟩ <;> rw [hstep] at h
    · cases h
      exact ⟨[], .here _, by simp⟩
    · cases h
    · obtain ⟨ps, htrail, rfl⟩ := ancestry_loop_eq_ok h
      obtain ⟨qs, hqs⟩ := htrail.eq_cons
      refine ⟨cur :: ps, .step hcur hp htrail, ?_⟩
      -- the parent pushed is the next point of the walk
      simp [hqs]

/-- **The loop returns `Err` only off the map**: its trail ends at a hash other than the base
    that no header is stored under. -/
theorem ancestry_loop_eq_error : ∀ {fuel : Nat} {cur : H} {route : List H} {e : GrandpaError},
    AncestryChain.ancestry.loop c base fuel cur route = some (.error e) →
      e = .notDescendent ∧
        ∃ ps x, Trail c.parentOf base cur (ps ++ [x]) ∧ x ≠ base ∧ c.parentOf x = none
  | 0, _, _, _, h => by cases h
  | fuel + 1, cur, route, e, h => by
    rcases ancestry_loop_succ c base fuel cur route with
      ⟨-, hstep⟩ | ⟨hcur, hnone, hstep⟩ | ⟨p, hcur, hp, hstep⟩ <;> rw [hstep] at h
    · cases h
    · cases h
      exact ⟨rfl, [], cur, .here cur, hcur, hnone⟩
    · obtain ⟨he, ps, x, htrail, hx, hnone⟩ := ancestry_loop_eq_error h
      exact ⟨he, cur :: ps, x, .step hcur hp htrail, hx, hnone⟩

/-- **The fuel runs out only on a long trail**: `fuel + 1` points, none of them the base
    before the last. -/
theorem ancestry_loop_eq_none : ∀ {fuel : Nat} {cur : H} {route : List H},
    AncestryChain.ancestry.loop c base fuel cur route = none →
      ∃ ps, Trail c.parentOf base cur ps ∧ ps.length = fuel + 1
  | 0, cur, _, _ => ⟨[cur], .here cur, rfl⟩
  | fuel + 1, cur, route, h => by
    rcases ancestry_loop_succ c base fuel cur route with
      ⟨-, hstep⟩ | ⟨-, -, hstep⟩ | ⟨p, hcur, hp, hstep⟩ <;> rw [hstep] at h
    · cases h
    · cases h
    · obtain ⟨ps, htrail, hlen⟩ := ancestry_loop_eq_none h
      exact ⟨cur :: ps, .step hcur hp htrail, by simp [hlen]⟩

/-- **The three ends of `ancestry`**: the loop's `Ok` route, popped; its `Err`; or the fuel
    running out. -/
theorem ancestry_cases (block : H) (fuel : Nat) :
    (∃ r, AncestryChain.ancestry.loop c base fuel block [] = some (.ok r) ∧
      c.ancestry base block fuel = some (.ok r.dropLast)) ∨
    (∃ e, AncestryChain.ancestry.loop c base fuel block [] = some (.error e) ∧
      c.ancestry base block fuel = some (.error e)) ∨
    (AncestryChain.ancestry.loop c base fuel block [] = none ∧
      c.ancestry base block fuel = none) := by
  unfold AncestryChain.ancestry
  cases AncestryChain.ancestry.loop c base fuel block [] with
  | none => exact .inr (.inr ⟨rfl, rfl⟩)
  | some r =>
    cases r with
    | error e => exact .inr (.inl ⟨e, rfl, rfl⟩)
    | ok r => exact .inl ⟨r, rfl, rfl⟩

omit [DecidableEq H] in
/-- `route.pop()` after the pushes: the trail's points strictly between the block and the
    base. -/
theorem tail_dropLast (ps : List H) (x : H) : ((ps ++ [x]).tail).dropLast = ps.tail := by
  cases ps with
  | nil => rfl
  | cons p ps => simp

variable {c base}

theorem ancestry_eq_ok {block : H} {fuel : Nat} {route : List H}
    (h : c.ancestry base block fuel = some (.ok route)) :
    ∃ ps, Trail c.parentOf base block (ps ++ [base]) ∧ route = ps.tail := by
  rcases ancestry_cases c base block fuel with ⟨r, hloop, hanc⟩ | ⟨e, -, hanc⟩ | ⟨-, hanc⟩ <;>
    rw [hanc] at h
  · cases h
    obtain ⟨ps, htrail, rfl⟩ := ancestry_loop_eq_ok c base hloop
    exact ⟨ps, htrail, by rw [List.nil_append, tail_dropLast]⟩
  · cases h
  · cases h

theorem ancestry_eq_error {block : H} {fuel : Nat} {e : GrandpaError}
    (h : c.ancestry base block fuel = some (.error e)) :
    e = .notDescendent ∧ ¬ ∃ ps, Trail c.parentOf base block (ps ++ [base]) := by
  rcases ancestry_cases c base block fuel with ⟨r, -, hanc⟩ | ⟨e', hloop, hanc⟩ | ⟨-, hanc⟩ <;>
    rw [hanc] at h
  · cases h
  · cases h
    -- the loop's trail leaves the map, so no trail reaches the base
    obtain ⟨he, qs, x, hleave, hx, hnone⟩ := ancestry_loop_eq_error c base hloop
    exact ⟨he, fun ⟨ps, hreach⟩ => hreach.not_reach_of_leave hleave hx hnone⟩
  · cases h

theorem ancestry_eq_none {block : H} {fuel : Nat} (h : c.ancestry base block fuel = none) :
    ∃ ps, Trail c.parentOf base block ps ∧ ps.length = fuel + 1 := by
  rcases ancestry_cases c base block fuel with ⟨r, -, hanc⟩ | ⟨e, -, hanc⟩ | ⟨hloop, -⟩
  · rw [hanc] at h
    cases h
  · rw [hanc] at h
    cases h
  · exact ancestry_loop_eq_none c base hloop

end Walk

/-! ## §4. The map of `AncestryChain::new`. -/

section New

variable [DecidableEq H] (hash : Header H → H) (votesAncestries : List (Header H))

/-- A hash with a parent in the map is the hash of one of the headers. -/
theorem mem_hashes_of_parentOf {h p : H}
    (hp : (AncestryChain.new hash votesAncestries).parentOf h = some p) :
    h ∈ votesAncestries.map hash := by
  have hk := mem_keys_of_parentOf _ hp
  unfold AncestryChain.new ofList at hk
  rw [mem_keys_foldl_insert] at hk
  simpa using hk

/-- **`ancestry` terminates** on a walk that does not revisit a hash, given more fuel than
    there are headers: each lookup is of a new hash, and there are no more hashes than
    headers. -/
theorem ancestry_new_ne_none {base block : H}
    (hwalk : NoRevisit (AncestryChain.new hash votesAncestries).parentOf base block) {fuel : Nat}
    (hfuel : votesAncestries.length < fuel) :
    (AncestryChain.new hash votesAncestries).ancestry base block fuel ≠ none := by
  intro h
  obtain ⟨ps, htrail, hlen⟩ := ancestry_eq_none h
  have hbound := htrail.length_le (hwalk ps htrail)
    (fun x y hxy => mem_hashes_of_parentOf hash votesAncestries hxy)
  rw [List.length_map] at hbound
  omega

end New

/-! ## §5. What `verify` accepts. -/

section Verify

variable [DecidableEq H] (E : GrandpaEnv H A Sig) (j : GrandpaJustification H A Sig)
  (setId fuel : Nat)

omit [DecidableEq H] in
theorem mem_foldl_insert [DecidableEq H] {x : H} : ∀ (l : List H) (s : Finset H),
    x ∈ l.foldl (fun s hash => insert hash s) s ↔ x ∈ s ∨ x ∈ l
  | [], s => by simp
  | y :: l, s => by
    rw [List.foldl_cons, mem_foldl_insert l, Finset.mem_insert, List.mem_cons]
    tauto

/-- **The loop over the precommits visits only walked paths**: a hash it adds is the target of
    a precommit other than the commit's, or on the route `ancestry` returned for it. -/
theorem visitPrecommits_eq_ok (ancestryChain : AncestryChain H) :
    ∀ {precommits : List (SignedPrecommit H A Sig)} {visited V : Finset H},
      j.visitPrecommits E setId fuel ancestryChain precommits visited = some (.ok V) →
      ∀ x ∈ V, x ∈ visited ∨ ∃ signed ∈ precommits,
        signed.precommit.targetHash ≠ j.commit.targetHash ∧
        ∃ route, ancestryChain.ancestry j.commit.targetHash signed.precommit.targetHash fuel =
          some (.ok route) ∧ (x = signed.precommit.targetHash ∨ x ∈ route)
  | [], visited, V, h => by
    cases h
    exact fun x hx => .inl hx
  | signed :: precommits, visited, V, h => by
    intro x hx
    unfold GrandpaJustification.visitPrecommits at h
    cases hsig : checkMessageSigWithBuffer E signed.precommit signed.id signed.signature j.round
        setId with
    | error u =>
      rw [hsig] at h
      cases h
    | ok u =>
      rw [hsig] at h
      dsimp only at h
      by_cases htarget : j.commit.targetHash = signed.precommit.targetHash
      · -- `continue`: the commit target itself is not walked
        rw [if_pos htarget] at h
        rcases visitPrecommits_eq_ok ancestryChain h x hx with hv | hrest
        · exact .inl hv
        · exact .inr (List.exists_mem_cons_of_exists hrest)
      · rw [if_neg htarget] at h
        cases hanc :
            ancestryChain.ancestry j.commit.targetHash signed.precommit.targetHash fuel with
        | none =>
          rw [hanc] at h
          cases h
        | some r =>
          rw [hanc] at h
          cases r with
          | error e => cases h
          | ok route =>
            dsimp only at h
            rcases visitPrecommits_eq_ok ancestryChain h x hx with hv | hrest
            · -- added here: the target, or a hash of its route
              rw [mem_foldl_insert, Finset.mem_insert] at hv
              rcases hv with (rfl | hv) | hv
              · exact .inr ⟨signed, List.mem_cons_self, Ne.symm htarget, route, hanc, .inl rfl⟩
              · exact .inl hv
              · exact .inr ⟨signed, List.mem_cons_self, Ne.symm htarget, route, hanc, .inr hv⟩
            · exact .inr (List.exists_mem_cons_of_exists hrest)

/-- `verify` returns `Ok(())` only after the commit validated and the precommit loop visited
    exactly the hashes of `votes_ancestries`. -/
theorem verify_eq_ok {voters : AuthorityList A} (h : j.verify E setId voters fuel = some (.ok ())) :
    E.validateCommit j.commit voters (AncestryChain.new E.hash j.votesAncestries) = true ∧
      j.visitPrecommits E setId fuel (AncestryChain.new E.hash j.votesAncestries)
        j.commit.precommits ∅ = some (.ok (j.votesAncestries.map E.hash).toFinset) := by
  unfold GrandpaJustification.verify at h
  dsimp only at h
  by_cases hvalid : E.validateCommit j.commit voters (AncestryChain.new E.hash j.votesAncestries)
  · rw [if_neg (by simp [hvalid])] at h
    refine ⟨hvalid, ?_⟩
    cases hvisit : j.visitPrecommits E setId fuel (AncestryChain.new E.hash j.votesAncestries)
        j.commit.precommits ∅ with
    | none =>
      rw [hvisit] at h
      cases h
    | some r =>
      rw [hvisit] at h
      cases r with
      | error e => cases h
      | ok visited =>
        dsimp only at h
        -- "... with unused headers" unless the two sets are equal
        by_cases heq : visited = (j.votesAncestries.map E.hash).toFinset
        · rw [heq]
        · rw [if_pos heq] at h
          cases h
  · rw [if_pos (by simpa using hvalid)] at h
    cases h

/-- **`verify` accepts only headers on walked paths**: every header of `votes_ancestries`
    lies on the path from some precommit target, other than the commit target, down to, but
    excluding, the commit target. -/
theorem verify_headers_on_paths {voters : AuthorityList A}
    (h : j.verify E setId voters fuel = some (.ok ())) :
    ∀ header ∈ j.votesAncestries, ∃ signed ∈ j.commit.precommits,
      signed.precommit.targetHash ≠ j.commit.targetHash ∧
      ∃ ps, Trail (AncestryChain.new E.hash j.votesAncestries).parentOf j.commit.targetHash
        signed.precommit.targetHash (ps ++ [j.commit.targetHash]) ∧ E.hash header ∈ ps := by
  intro header hheader
  obtain ⟨-, hvisit⟩ := verify_eq_ok E j setId fuel h
  have hmem : E.hash header ∈ (j.votesAncestries.map E.hash).toFinset :=
    List.mem_toFinset.mpr (List.mem_map_of_mem hheader)
  rcases visitPrecommits_eq_ok E j setId fuel _ hvisit _ hmem with hnil | ⟨signed, hsigned, hne,
    route, hanc, hon⟩
  · simp at hnil
  · -- the route is the walk's points after the target, which comes first
    obtain ⟨ps, htrail, rfl⟩ := ancestry_eq_ok hanc
    have hps := htrail.eq_cons_of_ne hne
    refine ⟨signed, hsigned, hne, ps, htrail, ?_⟩
    rw [hps]
    rcases hon with hx | hx
    · rw [hx]
      exact List.mem_cons_self
    · exact List.mem_cons_of_mem _ hx

end Verify

/-! ## §6. `ancestry` returns the interior of the path. -/

section Interior

variable [DecidableEq H]

/-- What an `Ok(route)` of `ancestry` is on any map: the trail `ps` that reaches the base is
    empty when the block is the base and is otherwise the block followed by the route; its
    hashes are keys of the map, and the base is not on the route. -/
theorem ancestry_ok_route {c : AncestryChain H} {base block : H} {fuel : Nat} {route : List H}
    (h : c.ancestry base block fuel = some (.ok route)) :
    ∃ ps, Trail c.parentOf base block (ps ++ [base]) ∧
      (block = base ∧ ps = [] ∧ route = [] ∨ block ≠ base ∧ ps = block :: route) ∧
      (∀ p ∈ ps, p ∈ keys c.headers) ∧ base ∉ route := by
  obtain ⟨ps, htrail, rfl⟩ := ancestry_eq_ok h
  have hkeys : ∀ p ∈ ps, p ∈ keys c.headers := by
    intro p hp
    obtain ⟨-, q, hq⟩ := htrail.of_mem_dropLast (by rwa [List.dropLast_concat])
    exact mem_keys_of_parentOf c hq
  refine ⟨ps, htrail, ?_, hkeys, fun hb => htrail.not_mem_stop (List.mem_of_mem_tail hb)⟩
  by_cases hblock : block = base
  · -- `current_hash == base` at once: nothing is looked up
    subst hblock
    have hnil := htrail.eq_nil_of_stop
    exact .inl ⟨rfl, hnil, by rw [hnil]; rfl⟩
  · exact .inr ⟨hblock, htrail.eq_cons_of_ne hblock⟩

/-- **`AncestryChain::ancestry` returns the interior of the parent path**, and `verify` rests
    on it.  On the map `AncestryChain::new` builds, when the walk from `block` does not revisit
    a hash, `ancestry(base, block)` terminates once the fuel exceeds the number of headers.
    It returns `Ok(route)` exactly when the walk reaches `base`; then, for the walk's hashes
    `ps = [p₀, …, pₘ]` before `base` (the hashes the loop looks up), `ps` is empty when
    `block = base` and is `block :: route` otherwise, so `route = [p₁, …, pₘ]`; every `pᵢ` is a
    key of the map and `base` is not on the route.  Otherwise it returns `Err(NotDescendent)`.
    And `verify` accepts only if every header of `votes_ancestries` lies on the path from some
    precommit target down to, but excluding, the commit target. -/
theorem ancestry_returns_interior :
    (∀ (hash : Header H → H) (votesAncestries : List (Header H)) (base block : H),
      NoRevisit (AncestryChain.new hash votesAncestries).parentOf base block →
      ∀ fuel, votesAncestries.length < fuel →
        ∃ r, (AncestryChain.new hash votesAncestries).ancestry base block fuel = some r ∧
          ((∃ route, r = .ok route) ↔
            ∃ ps, Trail (AncestryChain.new hash votesAncestries).parentOf base block
              (ps ++ [base])) ∧
          (∀ route, r = .ok route →
            ∃ ps, Trail (AncestryChain.new hash votesAncestries).parentOf base block
                (ps ++ [base]) ∧
              (block = base ∧ ps = [] ∧ route = [] ∨ block ≠ base ∧ ps = block :: route) ∧
              (∀ p ∈ ps, p ∈ keys (AncestryChain.new hash votesAncestries).headers) ∧
              base ∉ route) ∧
          ((¬ ∃ route, r = .ok route) → r = .error .notDescendent)) ∧
    (∀ (E : GrandpaEnv H A Sig) (j : GrandpaJustification H A Sig) (setId : Nat)
        (voters : AuthorityList A) (fuel : Nat),
      j.verify E setId voters fuel = some (.ok ()) →
        ∀ header ∈ j.votesAncestries, ∃ signed ∈ j.commit.precommits,
          signed.precommit.targetHash ≠ j.commit.targetHash ∧
          ∃ ps, Trail (AncestryChain.new E.hash j.votesAncestries).parentOf j.commit.targetHash
              signed.precommit.targetHash (ps ++ [j.commit.targetHash]) ∧ E.hash header ∈ ps) := by
  refine ⟨fun hash votesAncestries base block hwalk fuel hfuel => ?_,
    fun E j setId voters fuel h => verify_headers_on_paths E j setId fuel h⟩
  obtain ⟨r, hr⟩ := Option.ne_none_iff_exists'.mp
    (ancestry_new_ne_none hash votesAncestries hwalk hfuel)
  refine ⟨r, hr, ⟨?_, ?_⟩, fun route hroute => ancestry_ok_route (hroute ▸ hr), ?_⟩
  · rintro ⟨route, rfl⟩
    obtain ⟨ps, htrail, -⟩ := ancestry_eq_ok hr
    exact ⟨ps, htrail⟩
  · -- reaching the base rules the error out
    intro hreach
    cases r with
    | ok route => exact ⟨route, rfl⟩
    | error e => exact absurd hreach (ancestry_eq_error hr).2
  · intro hnot
    cases r with
    | ok route => exact absurd ⟨route, rfl⟩ hnot
    | error e => rw [(ancestry_eq_error hr).1]

/-- Headers `3 → 2 → 1` above the base `0`, hashed by their number: the route from `3` is
    `[2, 1]`, without the block and without the base. -/
example : (AncestryChain.new Header.number
    [⟨2, 3, 0, 0, []⟩, ⟨1, 2, 0, 0, []⟩, ⟨0, 1, 0, 0, []⟩]).ancestry 0 3 4 = some (.ok [2, 1]) :=
  rfl

/-- Headers `3 → 2 → 1`, hashed by their number, above the base `0`. -/
def threeHeaders : List (Header Nat) := [⟨2, 3, 0, 0, []⟩, ⟨1, 2, 0, 0, []⟩, ⟨0, 1, 0, 0, []⟩]

theorem trail_threeHeaders :
    Trail (AncestryChain.new Header.number threeHeaders).parentOf 0 3 ([3, 2, 1] ++ [0]) :=
  .step (by decide) rfl (.step (by decide) rfl (.step (by decide) rfl (.here 0)))

/-- The walk from `3` does not revisit a hash, and `ancestry(0, 3)` returns a route. -/
theorem ancestry_of_three_headers :
    NoRevisit (AncestryChain.new Header.number threeHeaders).parentOf 0 3 ∧
      ∃ r, (AncestryChain.new Header.number threeHeaders).ancestry 0 3 4 = some r ∧
        ∃ route, r = .ok route := by
  have hwalk := noRevisit_of_reach trail_threeHeaders (by decide)
  obtain ⟨r, hr, hreach, -⟩ :=
    (@ancestry_returns_interior Nat Nat Nat _).1 Header.number threeHeaders 0 3 hwalk 4
      (by decide)
  exact ⟨hwalk, r, hr, hreach.2 ⟨_, trail_threeHeaders⟩⟩

end Interior

end EncointerWorker.Relay
