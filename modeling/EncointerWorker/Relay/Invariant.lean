import Mathlib.Data.List.Chain
import EncointerWorker.Lib.HashChain
import EncointerWorker.Lib.Transition
import EncointerWorker.Relay.LightValidation

/-!
  EncointerWorker.Relay.Invariant — the relay chain invariant, over EVERY run of the public
  relay API from `LightValidation::new()`.

  The API is a transition system: one step is one call of `initialize_relay`,
  `submit_simple_header`, `submit_finalized_headers`, `submit_xt_to_be_included` or
  `check_xt_inclusion`, with any arguments, that returns (`Ok` or `Err`; a panic ends the
  run).  A ghost record of the run keeps the headers given to `initialize_relay` (in relay id
  order) and every header the submissions handed in (submitted headers, ancestry proofs).

  For each tracked relay the sequence `header_hashes ++ unjustified_headers` starts at the
  hash of its initial header, ends at the hash of its head, and each element descends from
  the one before through handed-in headers linked by parent hash (`Lib.Descends`); the
  tracked ids are exactly `1..num_relays`.

  Main results:
    * `verify_ancestry_matches_reference` — `verify_ancestry` accepts exactly when the
      child's parent is the ancestor or the proof's first `k` headers, by index, link it there.
    * `verifyAncestry_descends` — what `verify_ancestry` accepts is a descent.
    * `inv_step` — one call preserves the invariant; `reachable_inv` — every run does.
    * `relay_chain_invariant` — the invariant, and `genesis_hash` / `latest_header` answer
      (no panic, no `Err`) for every id in `1..num_relays`.
-/

namespace EncointerWorker.Relay.Invariant

open EncointerWorker.Lib

variable {H A : Type}

/-! ## §1. What `verify_ancestry` accepts. -/

section Ancestry

variable [DecidableEq H] (hash : Header H → H)

/-- The loop's reference, newest header first: the first header is the one the cursor names,
    and its parent is the ancestor, or the rest of the proof reaches the ancestor from it. -/
def ProofReaches (ancestorHash : H) : H → List (Header H) → Prop
  | _, [] => False
  | p, header :: proof =>
    hash header = p ∧
      (header.parentHash = ancestorHash ∨ ProofReaches ancestorHash header.parentHash proof)

/-- The proof loop accepts exactly what `ProofReaches` describes. -/
theorem walk_eq_ok_iff {ancestorHash : H} : ∀ (proof : List (Header H)) (p : H),
    verifyAncestry.walk hash ancestorHash proof p = .ok () ↔
      ProofReaches hash ancestorHash p proof
  | [], p => by simp [verifyAncestry.walk, ProofReaches]
  | header :: proof, p => by
    unfold verifyAncestry.walk
    rw [ProofReaches, ← walk_eq_ok_iff proof header.parentHash]
    -- a broken link `break`s, an ancestor parent returns, any other parent moves the cursor
    by_cases hhash : hash header = p
    · by_cases hpar : header.parentHash = ancestorHash
      · simp [hhash, hpar]
      · simp [hhash, hpar]
    · simp [hhash]

/-- Every error of the proof loop is `InvalidAncestryProof`. -/
theorem walk_eq_ok_or {ancestorHash : H} : ∀ (proof : List (Header H)) (p : H),
    verifyAncestry.walk hash ancestorHash proof p = .ok () ∨
      verifyAncestry.walk hash ancestorHash proof p = .error .invalidAncestryProof
  | [], _ => .inr rfl
  | header :: proof, p => by
    unfold verifyAncestry.walk
    split_ifs
    · exact .inr rfl
    · exact .inl rfl
    · exact walk_eq_ok_or proof header.parentHash

omit [DecidableEq H] in
/-- A proof that reaches the ancestor holds a run of its headers linking the ancestor to the
    cursor. -/
theorem ProofReaches.links {ancestorHash : H} : ∀ {proof : List (Header H)} {p : H},
    ProofReaches hash ancestorHash p proof →
      ∃ cs, cs ≠ [] ∧ (∀ c ∈ cs, c ∈ proof) ∧ Links hash Header.parentHash ancestorHash cs p
  | [], _, h => False.elim h
  | header :: proof, p, ⟨hp, hrest⟩ => by
    rcases hrest with hpar | hrest
    · -- the header's parent is the ancestor: the run is this header alone
      refine ⟨[header], by simp, by simp, ?_⟩
      simp [hpar, hp]
    · -- the rest of the proof reaches the ancestor from this header's parent
      obtain ⟨cs, hne, hmem, hlinks⟩ := ProofReaches.links hrest
      refine ⟨cs ++ [header], by simp, ?_, ?_⟩
      · intro c hc
        rcases List.mem_append.1 hc with hc | hc
        · exact List.mem_cons_of_mem _ (hmem c hc)
        · rw [List.mem_singleton.1 hc]; exact List.mem_cons_self
      · rw [← hp]
        exact hlinks.snoc header rfl

/-- `ProofReaches` by index: some prefix of `k ≥ 1` headers is linked from the cursor, and the
    parent of its last header is the ancestor. -/
theorem proofReaches_iff_index {ancestorHash : H} : ∀ (proof : List (Header H)) (p : H),
    ProofReaches hash ancestorHash p proof ↔
      ∃ (k : Nat) (hk₁ : 1 ≤ k) (hk₂ : k ≤ proof.length),
        hash proof[0] = p ∧ (∀ i (hi : i < k - 1), hash proof[i + 1] = proof[i].parentHash) ∧
        proof[k - 1].parentHash = ancestorHash
  | [], p => by
    simp only [ProofReaches, false_iff]
    rintro ⟨k, hk₁, hk₂, -⟩
    simp only [List.length_nil] at hk₂
    omega
  | header :: proof, p => by
    rw [ProofReaches, proofReaches_iff_index proof header.parentHash]
    constructor
    · rintro ⟨hhash, hpar | ⟨k, hk₁, hk₂, h₀, hlink, hlast⟩⟩
      · -- the first header's parent is the ancestor: the prefix of one header
        exact ⟨1, le_rfl, by simp, hhash, fun i hi => absurd hi (by omega), hpar⟩
      · -- the rest reaches it with `k` headers: this header and those
        refine ⟨k + 1, by omega, by simp; omega, hhash, fun i hi => ?_, ?_⟩
        · cases i with
          | zero => simpa using h₀
          | succ j => simpa using hlink j (by omega)
        · obtain ⟨k', rfl⟩ : ∃ k', k = k' + 1 := ⟨k - 1, by omega⟩
          simpa using hlast
    · rintro ⟨k, hk₁, hk₂, h₀, hlink, hlast⟩
      have hhash : hash header = p := by simpa using h₀
      refine ⟨hhash, ?_⟩
      by_cases hpar : header.parentHash = ancestorHash
      · exact .inl hpar
      · -- one header is not enough, so the rest of the prefix reaches the ancestor
        obtain ⟨k', rfl⟩ : ∃ k', k = k' + 2 := by
          refine ⟨k - 2, ?_⟩
          have hk : k ≠ 1 := by
            rintro rfl
            exact hpar (by simpa using hlast)
          omega
        refine .inr ⟨k' + 1, by omega, by simp at hk₂; omega, ?_, fun i hi => ?_, ?_⟩
        · simpa using hlink 0 (by omega)
        · simpa using hlink (i + 1) (by omega)
        · simpa using hlast

/-- **`verify_ancestry` matches its reference**: it returns `Ok(())` exactly when the child's
    parent is the ancestor, or a prefix of `k ≥ 1` proof headers is linked from the child's
    parent and ends at a header whose parent is the ancestor; every other result is
    `Err(InvalidAncestryProof)`. -/
theorem verify_ancestry_matches_reference (proof : List (Header H)) (a : H) (child : Header H) :
    (verifyAncestry hash proof a child = .ok () ↔
      child.parentHash = a ∨
        ∃ (k : Nat) (hk₁ : 1 ≤ k) (hk₂ : k ≤ proof.length),
          hash proof[0] = child.parentHash ∧
          (∀ i (hi : i < k - 1), hash proof[i + 1] = proof[i].parentHash) ∧
          proof[k - 1].parentHash = a) ∧
    (verifyAncestry hash proof a child = .ok () ∨
      verifyAncestry hash proof a child = .error .invalidAncestryProof) := by
  unfold verifyAncestry
  by_cases hparent : child.parentHash = a
  · simp [hparent]
  · rw [if_neg hparent]
    refine ⟨?_, walk_eq_ok_or hash proof child.parentHash⟩
    rw [walk_eq_ok_iff, proofReaches_iff_index]
    simp [hparent]

/-- **`verify_ancestry` is sound**: an accepted child descends from the ancestor through
    the child and the headers of the proof. -/
theorem verifyAncestry_descends {proof : List (Header H)} {ancestorHash : H}
    {child : Header H} (h : verifyAncestry hash proof ancestorHash child = .ok ()) :
    Descends hash Header.parentHash (· ∈ child :: proof) ancestorHash (hash child) := by
  unfold verifyAncestry at h
  split_ifs at h with hparent
  · exact ⟨[child], by simp, by simp, by simp [hparent]⟩
  · obtain ⟨cs, hne, hmem, hlinks⟩ :=
      ProofReaches.links hash ((walk_eq_ok_iff hash proof child.parentHash).mp h)
    refine ⟨cs ++ [child], by simp, ?_, hlinks.snoc child rfl⟩
    intro c hc
    rcases List.mem_append.1 hc with hc | hc
    · exact List.mem_cons_of_mem _ (hmem c hc)
    · rw [List.mem_singleton.1 hc]; exact List.mem_cons_self

end Ancestry

/-! ## §2. The relay API as a transition system. -/

/-- One call of the relay API, with its arguments. -/
inductive RelayOp (H A : Type) where
  | initializeRelay (header : Header H) (validatorSet : AuthorityList A) (proof : StorageProof)
  | submitSimpleHeader (relayId : Nat) (header : Header H) (grandpaProof : Option Bytes)
  | submitFinalizedHeaders (relayId : Nat) (header : Header H) (ancestryProof : List (Header H))
      (validatorSet : AuthorityList A) (validatorSetId : Nat) (grandpaProof : Option Bytes)
  | submitXtToBeIncluded (relayId : Nat) (extrinsic : Bytes)
  | checkXtInclusion (relayId : Nat) (block : Block H)

section Ops

variable [DecidableEq H] (S : Substrate H A)

/-- The call itself; `initialize_relay`'s new id is forgotten. -/
def RelayOp.call (v : LightValidation H A) : RelayOp H A → Call H A Unit
  | .initializeRelay header vs proof =>
    (Relay.initializeRelay S v header vs proof).map fun r => (r.1.map fun _ => (), r.2)
  | .submitSimpleHeader i header gp => Relay.submitSimpleHeader S v i header gp
  | .submitFinalizedHeaders i header proof vs vsId gp =>
    Relay.submitFinalizedHeaders S v i header proof vs vsId gp
  | .submitXtToBeIncluded i xt => Relay.submitXtToBeIncluded v i xt
  | .checkXtInclusion i block => Relay.checkXtInclusion S v i block

/-- The headers a submission hands to the relay: the header and its ancestry proof. -/
def RelayOp.headers : RelayOp H A → List (Header H)
  | .submitSimpleHeader _ header _ => [header]
  | .submitFinalizedHeaders _ header proof _ _ _ => header :: proof
  | _ => []

/-- The ghost record of a run. -/
structure Ghost (H : Type) where
  /-- The headers of the successful `initialize_relay` calls, relay `k` at index `k - 1`. -/
  inits : List (Header H)
  /-- Every header submitted or given in an ancestry proof. -/
  known : List (Header H)

/-- The ghost record after one call with result `r`. -/
def Ghost.record (g : Ghost H) (op : RelayOp H A) (r : Except Error Unit) : Ghost H where
  inits := match op, r with
    | .initializeRelay header _ _, .ok () => g.inits ++ [header]
    | _, _ => g.inits
  known := g.known ++ op.headers

/-- One call of the API that returns. -/
def RelayStep (p p' : LightValidation H A × Ghost H) : Prop :=
  ∃ op r, op.call S p.1 = some (r, p'.1) ∧ p'.2 = p.2.record op r

/-- The relays and ghost records reachable from `LightValidation::new()`. -/
def Reachable : LightValidation H A × Ghost H → Prop :=
  Reach (· = (LightValidation.new, ⟨[], []⟩)) (RelayStep S)

end Ops

/-! ## §3. The invariant. -/

section Invariant

variable (S : Substrate H A)

/-- The hashes a relay has imported, justified ones first. -/
def chainSeq (r : RelayState H A) : List H := r.headerHashes ++ r.unjustifiedHeaders

/-- The invariant of one tracked relay, initialized with `genesis`. -/
structure RelayInv (known : List (Header H)) (genesis : Header H) (r : RelayState H A) :
    Prop where
  /-- (1) `header_hashes[0]` is the hash of the initial header. -/
  genesis_hash : r.headerHashes.head? = some (S.hash genesis)
  /-- (2) the last imported hash is the head's. -/
  last_finalized : (chainSeq r).getLast? = some (S.hash r.lastFinalizedBlockHeader)
  /-- (3) each imported hash descends from the one before. -/
  linked : (chainSeq r).IsChain (Descends S.hash Header.parentHash (· ∈ known))

/-- The invariant of the whole relay. -/
structure Inv (g : Ghost H) (v : LightValidation H A) : Prop where
  /-- One initial header per relay id. -/
  num_relays : v.numRelays = g.inits.length
  /-- (4) the tracked ids are exactly `1..num_relays`. -/
  keys : ∀ k, (v.trackedRelays k).isSome ↔ 1 ≤ k ∧ k ≤ v.numRelays
  /-- Each tracked relay satisfies (1)–(3) for its own initial header. -/
  relays : ∀ k r, v.trackedRelays k = some r →
    ∃ genesis, g.inits[k - 1]? = some genesis ∧ RelayInv S g.known genesis r

end Invariant

/-! ## §4. Preservation by each relay update. -/

section RelayUpdates

variable (S : Substrate H A) {known : List (Header H)} {genesis : Header H}

theorem relayInv_new (vs : AuthorityList A) :
    RelayInv S known genesis (RelayState.new S.hash genesis vs) where
  genesis_hash := rfl
  last_finalized := rfl
  linked := List.isChain_singleton _

theorem RelayInv.mono {known' : List (Header H)} (hk : ∀ c ∈ known, c ∈ known')
    {r : RelayState H A} (h : RelayInv S known genesis r) : RelayInv S known' genesis r where
  genesis_hash := h.genesis_hash
  last_finalized := h.last_finalized
  linked := h.linked.imp fun _ _ hd => hd.mono hk

/-- Updates that leave the head and both hash queues alone keep the invariant. -/
theorem RelayInv.of_same_chain {r r' : RelayState H A} (h : RelayInv S known genesis r)
    (hh : r'.headerHashes = r.headerHashes) (hu : r'.unjustifiedHeaders = r.unjustifiedHeaders)
    (hl : r'.lastFinalizedBlockHeader = r.lastFinalizedBlockHeader) :
    RelayInv S known genesis r' where
  genesis_hash := by rw [hh]; exact h.genesis_hash
  last_finalized := by rw [chainSeq, hh, hu, hl]; exact h.last_finalized
  linked := by rw [chainSeq, hh, hu]; exact h.linked

/-- **The import step.**  A new head whose hash is appended to the imported sequence, and
    which descends from the old head, keeps the invariant. -/
theorem RelayInv.extend {r r' : RelayState H A} {header : Header H}
    (h : RelayInv S known genesis r)
    (hd : Descends S.hash Header.parentHash (· ∈ known) (S.hash r.lastFinalizedBlockHeader)
      (S.hash header))
    (hseq : (chainSeq r') = (chainSeq r) ++ [S.hash header])
    (hhead : r'.headerHashes.head? = r.headerHashes.head?)
    (hl : r'.lastFinalizedBlockHeader = header) : RelayInv S known genesis r' where
  genesis_hash := by rw [hhead]; exact h.genesis_hash
  last_finalized := by rw [hseq, hl]; simp
  linked := by
    rw [hseq]
    refine h.linked.append (List.isChain_singleton _) ?_
    intro x hx y hy
    -- the old last hash is the old head's, the new one the header's
    rw [h.last_finalized, Option.mem_some_iff] at hx
    rw [List.head?_singleton, Option.mem_some_iff] at hy
    rw [← hx, ← hy]
    exact hd

theorem RelayInv.acceptUnjustified {r : RelayState H A} {header : Header H}
    (h : RelayInv S known genesis r)
    (hd : Descends S.hash Header.parentHash (· ∈ known) (S.hash r.lastFinalizedBlockHeader)
      (S.hash header)) :
    RelayInv S known genesis (r.acceptUnjustified S header) :=
  h.extend S hd (by simp [chainSeq]) rfl rfl

theorem RelayInv.acceptJustified {r : RelayState H A} {header : Header H}
    (vs : AuthorityList A) (vsId : Nat) (h : RelayInv S known genesis r)
    (hd : Descends S.hash Header.parentHash (· ∈ known) (S.hash r.lastFinalizedBlockHeader)
      (S.hash header)) :
    RelayInv S known genesis (r.acceptJustified S header vs vsId) := by
  have hne : r.headerHashes ≠ [] := by
    intro hnil
    have := h.genesis_hash
    rw [hnil] at this
    cases this
  refine h.extend S hd ?_ ?_ (by simp)
  · simp [chainSeq]
  · rw [acceptJustified_headerHashes, List.append_assoc, List.head?_append_of_ne_nil _ hne]

end RelayUpdates

/-! ## §5. Preservation by each call. -/

section Calls

variable (S : Substrate H A) {g : Ghost H} {v v' : LightValidation H A}

/-- More handed-in headers keep the invariant. -/
theorem Inv.mono_known {known' : List (Header H)} (hk : ∀ c ∈ g.known, c ∈ known')
    (h : Inv S g v) : Inv S ⟨g.inits, known'⟩ v where
  num_relays := h.num_relays
  keys := h.keys
  relays := by
    intro k r hr
    obtain ⟨gen, hgen, hinv⟩ := h.relays k r hr
    exact ⟨gen, hgen, hinv.mono S hk⟩

/-- Overwriting a tracked relay with one that keeps the per-relay invariant. -/
theorem Inv.setRelay (h : Inv S g v) {i : Nat} {r r' : RelayState H A}
    (hi : v.trackedRelays i = some r)
    (hr : ∀ gen, RelayInv S g.known gen r → RelayInv S g.known gen r') :
    Inv S g (v.setRelay i r') where
  num_relays := h.num_relays
  keys := by
    intro k
    by_cases hk : k = i
    · subst hk
      rw [setRelay_same, setRelay_numRelays, ← h.keys, hi]
      rfl
    · rw [setRelay_ne v r' hk, setRelay_numRelays]
      exact h.keys k
  relays := by
    intro k r'' hr''
    by_cases hk : k = i
    · subst hk
      rw [setRelay_same, Option.some.injEq] at hr''
      subst hr''
      obtain ⟨gen, hgen, hinv⟩ := h.relays k r hi
      exact ⟨gen, hgen, hr gen hinv⟩
    · rw [setRelay_ne v r' hk] at hr''
      exact h.relays k r'' hr''

/-- A call other than `initialize_relay` keeps the initial headers and hands in its own. -/
theorem record_of_not_init {op : RelayOp H A} (r : Except Error Unit)
    (hop : ∀ header vs proof, op ≠ .initializeRelay header vs proof) :
    g.record op r = ⟨g.inits, g.known ++ op.headers⟩ := by
  cases op with
  | initializeRelay header vs proof => exact absurd rfl (hop header vs proof)
  | _ => rfl

/-- Handing in headers keeps the invariant. -/
theorem Inv.handIn (h : Inv S g v) (hs : List (Header H)) : Inv S ⟨g.inits, g.known ++ hs⟩ v :=
  h.mono_known S fun _ hc => List.mem_append_left _ hc

/-- A call that writes at most one relay's inclusion queue keeps the invariant. -/
theorem Inv.queueOnly (h : Inv S g v)
    (hcases : v' = v ∨ ∃ i relay l, v.trackedRelays i = some relay ∧
      v' = v.setRelay i { relay with verifyTxInclusion := l }) : Inv S g v' := by
  rcases hcases with rfl | ⟨i, relay, l, hrelay, rfl⟩
  · exact h
  · exact h.setRelay S hrelay fun _ hinv => hinv.of_same_chain S rfl rfl rfl

section Step

variable [DecidableEq H]

theorem inv_initializeRelay {header : Header H} {vs : AuthorityList A} {proof : StorageProof}
    {r : Except Error Unit} (h : Inv S g v)
    (hcall : (RelayOp.initializeRelay header vs proof).call S v = some (r, v')) :
    Inv S (g.record (.initializeRelay header vs proof) r) v' := by
  simp only [RelayOp.call, Relay.initializeRelay] at hcall
  split at hcall
  · -- a bad authority set proof: nothing changes
    simp only [Option.map_some, Option.some.injEq, Prod.mk.injEq] at hcall
    obtain ⟨rfl, rfl⟩ := hcall
    exact h.handIn S []
  · simp only [Option.map_some, Option.some.injEq, Prod.mk.injEq, Except.map] at hcall
    obtain ⟨rfl, rfl⟩ := hcall
    have hnum := h.num_relays
    have hrec : (g.record (.initializeRelay header vs proof) (.ok ())).inits =
        g.inits ++ [header] := rfl
    have hknown : ∀ c ∈ g.known,
        c ∈ (g.record (.initializeRelay header vs proof) (.ok ())).known :=
      fun _ hc => List.mem_append_left _ hc
    refine ⟨?_, ?_, ?_⟩
    · rw [hrec, List.length_append, List.length_singleton, ← hnum]
    · intro k
      by_cases hk : k = v.numRelays + 1
      · subst hk; simp
      · simp only [setRelay_ne v _ hk]
        rw [h.keys k]
        omega
    · intro k r hr
      by_cases hk : k = v.numRelays + 1
      · -- the new relay, initialized with `header`
        subst hk
        simp only [setRelay_same, Option.some.injEq] at hr
        subst hr
        refine ⟨header, ?_, relayInv_new S vs⟩
        rw [hrec, Nat.add_sub_cancel, hnum, List.getElem?_concat_length]
      · -- an old relay keeps its initial header
        simp only [setRelay_ne v _ hk] at hr
        have hk' : 1 ≤ k ∧ k ≤ v.numRelays := (h.keys k).1 (by rw [hr]; rfl)
        obtain ⟨gen, hgen, hinv⟩ := h.relays k r hr
        refine ⟨gen, ?_, hinv.mono S hknown⟩
        rw [hrec, List.getElem?_append_left (by omega)]
        exact hgen

theorem inv_submitFinalizedHeaders {i : Nat} {header : Header H} {proof : List (Header H)}
    {vs : AuthorityList A} {vsId : Nat} {gp : Option Bytes} {r : Except Error Unit}
    (h : Inv S g v)
    (hcall : submitFinalizedHeaders S v i header proof vs vsId gp = some (r, v')) :
    Inv S (g.record (.submitFinalizedHeaders i header proof vs vsId gp) r) v' := by
  rw [record_of_not_init r (by intros; simp)]
  show Inv S ⟨g.inits, g.known ++ header :: proof⟩ v'
  -- first hand in the header and its proof, then import
  have hk := h.handIn S (header :: proof)
  rcases r with e | ⟨⟩
  · rw [submitFinalizedHeaders_error S hcall]
    exact hk
  · obtain ⟨relay, hrelay, hanc, hcases⟩ := submitFinalizedHeaders_ok S hcall
    have hd : Descends S.hash Header.parentHash (· ∈ g.known ++ header :: proof)
        (S.hash relay.lastFinalizedBlockHeader) (S.hash header) :=
      (verifyAncestry_descends S.hash hanc).mono fun _ hc => List.mem_append_right _ hc
    rcases hcases with ⟨-, rfl⟩ | ⟨j, -, -, -, rfl⟩
    · exact hk.setRelay S hrelay fun _ hinv => hinv.acceptUnjustified S hd
    · exact hk.setRelay S hrelay fun _ hinv => hinv.acceptJustified S vs vsId hd

theorem inv_submitSimpleHeader {i : Nat} {header : Header H} {gp : Option Bytes}
    {r : Except Error Unit} (h : Inv S g v)
    (hcall : submitSimpleHeader S v i header gp = some (r, v')) :
    Inv S (g.record (.submitSimpleHeader (A := A) i header gp) r) v' := by
  rw [record_of_not_init r (by intros; simp)]
  show Inv S ⟨g.inits, g.known ++ [header]⟩ v'
  have hk := h.handIn S [header]
  -- the schedule's step keeps the head and the hash queues
  have hsched : ∀ {known gen} (relay : RelayState H A), RelayInv S known gen relay →
      RelayInv S known gen (applyValidatorSetChange relay header) := fun relay hinv =>
    hinv.of_same_chain S (by simp) (by simp) (by simp)
  rcases r with e | ⟨⟩
  · rcases submitSimpleHeader_error S hcall with rfl | ⟨relay, hrelay, rfl⟩
    · exact hk
    · exact hk.setRelay S hrelay fun _ hinv => hsched relay hinv
  · obtain ⟨relay, hrelay, hparent, hcases⟩ := submitSimpleHeader_ok S hcall
    -- a child of the head descends from it through the header alone
    have hd : Descends S.hash Header.parentHash (· ∈ g.known ++ [header])
        (S.hash (applyValidatorSetChange relay header).lastFinalizedBlockHeader)
        (S.hash header) :=
      ⟨[header], by simp, by simp, by simp [hparent]⟩
    rcases hcases with ⟨-, rfl⟩ | ⟨j, -, -, -, rfl⟩
    · exact hk.setRelay S hrelay fun _ hinv => (hsched relay hinv).acceptUnjustified S hd
    · exact hk.setRelay S hrelay fun _ hinv => (hsched relay hinv).acceptJustified S _ _ hd

/-- **One call of the API preserves the invariant.** -/
theorem inv_step {op : RelayOp H A} {r : Except Error Unit} (h : Inv S g v)
    (hcall : op.call S v = some (r, v')) : Inv S (g.record op r) v' := by
  cases op with
  | initializeRelay header vs proof => exact inv_initializeRelay S h hcall
  | submitSimpleHeader i header gp => exact inv_submitSimpleHeader S h hcall
  | submitFinalizedHeaders i header proof vs vsId gp =>
    exact inv_submitFinalizedHeaders S h hcall
  | submitXtToBeIncluded i xt =>
    rw [record_of_not_init r (by intros; simp)]
    exact (h.handIn S []).queueOnly S <|
      (submitXtToBeIncluded_cases hcall).imp_right fun ⟨relay, l, h₁, h₂⟩ => ⟨i, relay, l, h₁, h₂⟩
  | checkXtInclusion i block =>
    rw [record_of_not_init r (by intros; simp)]
    exact (h.handIn S []).queueOnly S <|
      (checkXtInclusion_cases S hcall).imp_right fun ⟨relay, l, h₁, h₂⟩ => ⟨i, relay, l, h₁, h₂⟩

omit [DecidableEq H] in
theorem inv_new : Inv S ⟨[], []⟩ (LightValidation.new : LightValidation H A) where
  num_relays := rfl
  keys := by intro k; simp [LightValidation.new]; omega
  relays := by intro k r hr; cases hr

/-- **Every reachable relay satisfies the invariant.** -/
theorem reachable_inv {p : LightValidation H A × Ghost H} (h : Reachable S p) : Inv S p.2 p.1 :=
  Reach.invariant (P := fun p => Inv S p.2 p.1)
    (fun p hp => by subst hp; exact inv_new S)
    (fun p p' hinv ⟨_, _, hcall, hg⟩ => by rw [hg]; exact inv_step S hinv hcall) h

/-- **The relay chain invariant.**  Every relay reachable from `LightValidation::new()`, with
    the ghost record of its run, satisfies `Inv`: the tracked ids are `1..num_relays`, and each
    tracked relay's hash sequence starts at its initial header's hash, ends at its head's, and
    is linked by descent through submitted or ancestry-proof headers.  Hence `genesis_hash`
    and `latest_header` answer `Ok`, without panicking, for every id in `1..num_relays`. -/
theorem relay_chain_invariant {v : LightValidation H A} {g : Ghost H}
    (h : Reachable S (v, g)) :
    Inv S g v ∧ ∀ k, 1 ≤ k → k ≤ v.numRelays →
      ∃ genesis, g.inits[k - 1]? = some genesis ∧
        genesisHash v k = some (.ok (S.hash genesis)) ∧ ∃ head, latestHeader v k = .ok head := by
  have hinv : Inv S g v := reachable_inv S h
  refine ⟨hinv, fun k hk₁ hk₂ => ?_⟩
  obtain ⟨r, hr⟩ := Option.isSome_iff_exists.1 ((hinv.keys k).2 ⟨hk₁, hk₂⟩)
  obtain ⟨genesis, hgen, hrinv⟩ := hinv.relays k r hr
  refine ⟨genesis, hgen, ?_, r.lastFinalizedBlockHeader, ?_⟩
  · unfold genesisHash
    rw [hr]
    show Option.map Except.ok r.headerHashes.head? = _
    rw [hrinv.genesis_hash]
    rfl
  · unfold latestHeader
    rw [hr]

end Step

end Calls

/-! ## §6. A run. -/

/-- A `Substrate` for runs on small values: a header hashes to its number, every proof opens
    to the version byte followed by the (empty) encoded set, every justification verifies. -/
def toySubstrate : Substrate Nat Nat where
  hash header := header.number
  hashOfExtrinsic xt := xt.length
  decodeConsensusLog _ := none
  checkProof _ _ _ := .ok (some [1])
  encodeAuthorityList _ := []
  voterSetNew _ := true
  verifyFinalizes _ _ _ _ _ := true

/-- A header numbered `n` on top of the hash `parent`. -/
def toyHeader (n parent : Nat) : Header Nat := ⟨parent, n, 0, 0, []⟩

/-- The invariant after `initialize_relay` on a fresh relay. -/
theorem relay_chain_invariant_after_init :
    Inv toySubstrate ⟨[toyHeader 0 0], []⟩
      ({ (LightValidation.new : LightValidation Nat Nat).setRelay 1
          (RelayState.new toySubstrate.hash (toyHeader 0 0) []) with numRelays := 1 }) ∧
    ∀ k, 1 ≤ k → k ≤ 1 →
      ∃ genesis, [toyHeader 0 0][k - 1]? = some genesis ∧
        genesisHash ({ (LightValidation.new : LightValidation Nat Nat).setRelay 1
          (RelayState.new toySubstrate.hash (toyHeader 0 0) []) with numRelays := 1 }) k =
          some (.ok (toySubstrate.hash genesis)) ∧
        ∃ head, latestHeader ({ (LightValidation.new : LightValidation Nat Nat).setRelay 1
          (RelayState.new toySubstrate.hash (toyHeader 0 0) []) with numRelays := 1 }) k =
          .ok head :=
  relay_chain_invariant toySubstrate
    (Reach.tail (Reach.base rfl) ⟨.initializeRelay (toyHeader 0 0) [] [], .ok (), rfl, rfl⟩)

end EncointerWorker.Relay.Invariant
