import EncointerWorker.Relay.Invariant

/-!
  EncointerWorker.Relay.Runs — what a run of the relay API does to the relays it started
  with (`enclave/chain_relay/src/lib.rs`).

  A relay is never dropped or replaced: `initialize_relay` adds one under the id after
  `num_relays`, which the invariant of `Relay.Invariant` says is free, and every other call
  writes back the relay it read.  What it writes back extends it: an import appends to the
  imported hashes (`header_hashes ++ unjustified_headers`) and, when justified, moves the
  unjustified ones into `header_hashes`; the schedule's step and the inclusion queue touch
  no hash.  So along every run from a reachable relay, finalized hashes are never lost or
  reordered.

  The enclave runs the submission calls, never `initialize_relay`, on the light client it
  unseals; `RunsFrom` is such a run, from any ghost record, and `Reachable.runsFrom` carries
  reachability, and with it the invariant, to its end.

  Main results:
    * `keeps_call` — one call from a state satisfying the invariant keeps every tracked relay,
      extended.
    * `keeps_of_run` — the same along every run from a reachable relay.
    * `Reachable.runsFrom` — a run of submissions from a reachable relay ends in one, with the
      same initial headers.
-/

namespace EncointerWorker.Relay.Invariant

open EncointerWorker.Lib

variable {H A : Type}

/-! ## §1. A relay extended. -/

section Extends

/-- `r'` extends `r`: the finalized hashes of `r`, and the whole sequence it imported, are
    prefixes of those of `r'`. -/
structure Extends (r r' : RelayState H A) : Prop where
  finalized : r.headerHashes <+: r'.headerHashes
  imported : chainSeq r <+: chainSeq r'

theorem extends_refl (r : RelayState H A) : Extends r r :=
  ⟨List.prefix_refl _, List.prefix_refl _⟩

theorem Extends.trans {r₁ r₂ r₃ : RelayState H A} (h₁ : Extends r₁ r₂) (h₂ : Extends r₂ r₃) :
    Extends r₁ r₃ :=
  ⟨h₁.finalized.trans h₂.finalized, h₁.imported.trans h₂.imported⟩

/-- An update that leaves both hash queues alone. -/
theorem extends_of_queues {r r' : RelayState H A} (hh : r'.headerHashes = r.headerHashes)
    (hu : r'.unjustifiedHeaders = r.unjustifiedHeaders) : Extends r r' := by
  refine ⟨hh ▸ List.prefix_refl _, ?_⟩
  simp only [chainSeq, hh, hu, List.prefix_refl]

variable (S : Substrate H A) (r : RelayState H A) (header : Header H)

/-- The unjustified import appends the header's hash to the imported sequence. -/
theorem extends_acceptUnjustified : Extends r (r.acceptUnjustified S header) := by
  refine ⟨by simp only [acceptUnjustified_headerHashes, List.prefix_refl], ?_⟩
  rw [chainSeq, chainSeq, acceptUnjustified_headerHashes, acceptUnjustified_unjustifiedHeaders,
    ← List.append_assoc]
  exact List.prefix_append _ _

/-- The justified import finalizes the queued hashes and the header's after them. -/
theorem extends_acceptJustified (vs : AuthorityList A) (vsId : Nat) :
    Extends r (r.acceptJustified S header vs vsId) := by
  constructor
  · rw [acceptJustified_headerHashes, List.append_assoc]
    exact List.prefix_append _ _
  · rw [chainSeq, chainSeq, acceptJustified_headerHashes, acceptJustified_unjustifiedHeaders,
      List.append_nil]
    exact List.prefix_append _ _

/-- The schedule's step touches no hash. -/
theorem extends_applyValidatorSetChange : Extends r (applyValidatorSetChange r header) :=
  extends_of_queues (applyValidatorSetChange_headerHashes r header)
    (applyValidatorSetChange_unjustifiedHeaders r header)

end Extends

/-! ## §2. Every tracked relay kept. -/

section Keeps

variable {v₁ v₂ v₃ : LightValidation H A}

/-- Every relay tracked in `v` is still tracked in `v'` under its id, extended. -/
def Keeps (v v' : LightValidation H A) : Prop :=
  ∀ k r, v.trackedRelays k = some r → ∃ r', v'.trackedRelays k = some r' ∧ Extends r r'

theorem keeps_refl (v : LightValidation H A) : Keeps v v :=
  fun _ r hr => ⟨r, hr, extends_refl r⟩

theorem Keeps.trans (h₁ : Keeps v₁ v₂) (h₂ : Keeps v₂ v₃) : Keeps v₁ v₃ := by
  intro k r hr
  obtain ⟨r₂, hr₂, he₂⟩ := h₁ k r hr
  obtain ⟨r₃, hr₃, he₃⟩ := h₂ k r₂ hr₂
  exact ⟨r₃, hr₃, he₂.trans he₃⟩

/-- Writing back a tracked relay extended. -/
theorem keeps_setRelay {v : LightValidation H A} {i : Nat} {r r' : RelayState H A}
    (hi : v.trackedRelays i = some r) (hr : Extends r r') : Keeps v (v.setRelay i r') := by
  intro k r'' hk
  by_cases hki : k = i
  · subst hki
    rw [hi, Option.some.injEq] at hk
    subst hk
    exact ⟨r', setRelay_same v k r', hr⟩
  · exact ⟨r'', by rw [setRelay_ne v r' hki]; exact hk, extends_refl r''⟩

/-- Adding a relay under an id not tracked yet. -/
theorem keeps_addRelay {v : LightValidation H A} {i n : Nat} (r : RelayState H A)
    (hi : v.trackedRelays i = none) : Keeps v { v.setRelay i r with numRelays := n } := by
  intro k r' hk
  have hki : k ≠ i := by
    rintro rfl
    rw [hi] at hk
    cases hk
  exact ⟨r', by show (v.setRelay i r).trackedRelays k = _; rw [setRelay_ne v r hki]; exact hk,
    extends_refl r'⟩

/-- A write of one relay's inclusion queue. -/
theorem keeps_of_queueOnly {v v' : LightValidation H A} {i : Nat}
    (h : v' = v ∨ ∃ relay l, v.trackedRelays i = some relay ∧
      v' = v.setRelay i { relay with verifyTxInclusion := l }) : Keeps v v' := by
  rcases h with rfl | ⟨relay, l, hrelay, rfl⟩
  · exact keeps_refl _
  · exact keeps_setRelay hrelay (extends_of_queues rfl rfl)

end Keeps

/-! ## §3. Along every run. -/

section Run

variable [DecidableEq H] (S : Substrate H A) {g : Ghost H} {v v' : LightValidation H A}

/-- **One call keeps every tracked relay, extended.**  `initialize_relay` adds its relay under
    `num_relays + 1`, which the invariant says is not tracked; an import writes back the relay
    it read, extended; the schedule's step and the queue operations touch no hash. -/
theorem keeps_call (h : Inv S g v) {op : RelayOp H A} {r : Except Error Unit}
    (hcall : op.call S v = some (r, v')) : Keeps v v' := by
  cases op with
  | initializeRelay header vs proof =>
    simp only [RelayOp.call, Relay.initializeRelay] at hcall
    split at hcall
    · simp only [Option.map_some, Option.some.injEq, Prod.mk.injEq] at hcall
      obtain ⟨-, rfl⟩ := hcall
      exact keeps_refl _
    · simp only [Option.map_some, Option.some.injEq, Prod.mk.injEq] at hcall
      obtain ⟨-, rfl⟩ := hcall
      -- the new id lies past `num_relays`
      have hnone : v.trackedRelays (v.numRelays + 1) = none := by
        cases hk : v.trackedRelays (v.numRelays + 1) with
        | none => rfl
        | some _ =>
          have := (h.keys _).1 (by rw [hk]; rfl)
          omega
      exact keeps_addRelay _ hnone
  | submitSimpleHeader i header gp =>
    rcases r with e | ⟨⟩
    · rcases submitSimpleHeader_error S hcall with rfl | ⟨relay, hrelay, rfl⟩
      · exact keeps_refl _
      · exact keeps_setRelay hrelay (extends_applyValidatorSetChange relay header)
    · obtain ⟨relay, hrelay, -, hcases⟩ := submitSimpleHeader_ok S hcall
      have hsched := extends_applyValidatorSetChange relay header
      rcases hcases with ⟨-, rfl⟩ | ⟨j, -, -, -, rfl⟩
      · exact keeps_setRelay hrelay (hsched.trans (extends_acceptUnjustified S _ header))
      · exact keeps_setRelay hrelay (hsched.trans (extends_acceptJustified S _ header _ _))
  | submitFinalizedHeaders i header proof vs vsId gp =>
    rcases r with e | ⟨⟩
    · rw [submitFinalizedHeaders_error S hcall]
      exact keeps_refl v
    · obtain ⟨relay, hrelay, -, hcases⟩ := submitFinalizedHeaders_ok S hcall
      rcases hcases with ⟨-, rfl⟩ | ⟨j, -, -, -, rfl⟩
      · exact keeps_setRelay hrelay (extends_acceptUnjustified S relay header)
      · exact keeps_setRelay hrelay (extends_acceptJustified S relay header vs vsId)
  | submitXtToBeIncluded i xt => exact keeps_of_queueOnly (submitXtToBeIncluded_cases hcall)
  | checkXtInclusion i block => exact keeps_of_queueOnly (checkXtInclusion_cases S hcall)

/-- **Along every run from a reachable relay, every tracked relay is kept, extended**: its
    finalized hashes and its imported hashes only grow at the end. -/
theorem keeps_of_run {p p' : LightValidation H A × Ghost H} (h : Reachable S p)
    (hrun : Relation.ReflTransGen (RelayStep S) p p') : Keeps p.1 p'.1 :=
  Reach.run_rel (R := fun p p' => Keeps p.1 p'.1) (fun p => keeps_refl p.1)
    (fun p₁ p₂ p₃ (h₁ : Keeps p₁.1 p₂.1) (h₂ : Keeps p₂.1 p₃.1) => h₁.trans h₂)
    (fun _ _ hp ⟨_, _, hcall, _⟩ => keeps_call S (reachable_inv S hp) hcall) h hrun

end Run

/-! ## §4. Runs of the submission calls. -/

section RunsFrom

variable [DecidableEq H] (S : Substrate H A) {v₁ v₂ v₃ v v' : LightValidation H A}

/-- `v'` is what calls other than `initialize_relay` make of `v`: from every ghost record,
    a run that ends in `v'` and keeps the initial headers. -/
def RunsFrom (v v' : LightValidation H A) : Prop :=
  ∀ g : Ghost H, ∃ known, Relation.ReflTransGen (RelayStep S) (v, g) (v', ⟨g.inits, known⟩)

theorem runsFrom_refl (v : LightValidation H A) : RunsFrom S v v :=
  fun g => ⟨g.known, .refl⟩

theorem RunsFrom.trans (h₁ : RunsFrom S v₁ v₂) (h₂ : RunsFrom S v₂ v₃) : RunsFrom S v₁ v₃ := by
  intro g
  obtain ⟨known₁, hrun₁⟩ := h₁ g
  obtain ⟨known₂, hrun₂⟩ := h₂ ⟨g.inits, known₁⟩
  exact ⟨known₂, hrun₁.trans hrun₂⟩

/-- One call other than `initialize_relay`, whatever it returns. -/
theorem runsFrom_call {op : RelayOp H A}
    (hop : ∀ header vs proof, op ≠ .initializeRelay header vs proof) {r : Except Error Unit}
    (hcall : op.call S v = some (r, v')) : RunsFrom S v v' :=
  fun g => ⟨g.known ++ op.headers, .single ⟨op, r, hcall, (record_of_not_init r hop).symm⟩⟩

/-- A run of submissions from a reachable relay ends in a reachable relay with the same
    initial headers. -/
theorem Reachable.runsFrom {g : Ghost H} (h : Reachable S (v, g)) (hr : RunsFrom S v v') :
    ∃ known, Reachable S (v', ⟨g.inits, known⟩) := by
  obtain ⟨known, hrun⟩ := hr g
  exact ⟨known, h.of_run hrun⟩

/-- `initialize_relay` on `LightValidation::new()` is one step of a run, with its header the
    one initial header. -/
theorem reachable_initializeRelay_new {header : Header H} {vs : AuthorityList A}
    {proof : StorageProof} {id : Nat}
    (h : Relay.initializeRelay S LightValidation.new header vs proof = some (.ok id, v)) :
    Reachable S (v, ⟨[header], []⟩) :=
  Reach.tail (Reach.base rfl)
    ⟨.initializeRelay header vs proof, .ok (), by simp only [RelayOp.call, h]; rfl, rfl⟩

end RunsFrom

end EncointerWorker.Relay.Invariant
