import Mathlib.Data.List.Sort
import EncointerWorker.Lib.Positions
import EncointerWorker.Relay.LightValidation

/-!
  EncointerWorker.Relay.Inclusion — how `check_xt_inclusion` clears the relay's pending
  extrinsics (`LightValidation::check_xt_inclusion` in `enclave/chain_relay/src/lib.rs`).

  For each extrinsic of the block the code records the position of the FIRST pending
  extrinsic with the same hash, sorts the positions highest first and removes them one by
  one with `Vec::remove`.  Two extrinsics of the block with the same hash record the same
  position twice: the second `remove` then takes the entry that moved into that position, or
  panics when there is none.  The block comes from the host and is checked before its header
  is verified.

  Main results:
    * `checkXtInclusion_found` — the call is the removal of the found positions, sorted.
    * `duplicate_xt_breaks_inclusion` — a block holding one pending extrinsic twice removes
      the pending entry behind it as well, and panics when there is no such entry.
    * `checkXtInclusion_distinct` — a block whose extrinsics have distinct hashes never makes
      the call panic: the positions found are distinct, and removing them highest first
      keeps the others (`Lib.Positions`).
    * `check_xt_inclusion_clears_included` — with distinct hashes in the block and in the
      pending list too, the call removes exactly the pending extrinsics the block carries.
-/

namespace EncointerWorker.Relay

variable {H A : Type}

/-! ## §1. The positions the code removes. -/

section Found

variable [DecidableEq H] (S : Substrate H A)

/-- `found_xts`: for each extrinsic of the block, the first pending position with its hash. -/
def foundXts (pending xts : List Bytes) : List Nat :=
  xts.filterMap fun xt =>
    pending.findIdx? fun xtOpaque => S.hashOfExtrinsic xt == S.hashOfExtrinsic xtOpaque

/-- `found_xts.sort_by(|a, b| b.cmp(a))`. -/
def sortDesc (is : List Nat) : List Nat := is.mergeSort fun a b => decide (b ≤ a)

/-- **The spec of `check_xt_inclusion` on a relay with pending extrinsics**: the relay is
    written back with the found positions removed, highest first, or the call panics. -/
theorem checkXtInclusion_found {v : LightValidation H A} {relayId : Nat} {relay : RelayState H A}
    (hrelay : v.trackedRelays relayId = some relay) (hne : relay.verifyTxInclusion ≠ [])
    (block : Block H) :
    checkXtInclusion S v relayId block =
      (removeEach (sortDesc (foundXts S relay.verifyTxInclusion block.extrinsics))
          relay.verifyTxInclusion).map
        fun rest => (.ok (), v.setRelay relayId { relay with verifyTxInclusion := rest }) := by
  have hempty : relay.verifyTxInclusion.isEmpty = false := List.isEmpty_eq_false_iff.mpr hne
  unfold checkXtInclusion foundXts sortDesc
  rw [hrelay]
  dsimp only
  rw [if_neg (by simp [hempty])]
  -- both outcomes of `removeEach`
  split
  · next hpanic => rw [hpanic]; rfl
  · next rest hrest => rw [hrest]; rfl

/-- A pending list led by `x`: each copy of `x` in the block finds position `0`. -/
theorem foundXts_dup (x : Bytes) (rest : List Bytes) :
    foundXts S (x :: rest) [x, x] = [0, 0] := by
  simp [foundXts, List.findIdx?_cons]

theorem sortDesc_zero_zero : sortDesc [0, 0] = [0, 0] := by
  unfold sortDesc
  exact List.mergeSort_eq_self (fun a b : Nat => b ≤ a) (by simp)

end Found

/-! ## §2. A duplicated extrinsic. -/

/-- **A duplicated extrinsic breaks the removal.**  A block that carries the first pending
    extrinsic `x` twice makes `check_xt_inclusion` remove position `0` twice: with a second
    pending entry `y` behind `x`, both go and the call returns `Ok`, whatever `y` is; with
    `x` alone, the second `Vec::remove(0)` panics. -/
theorem duplicate_xt_breaks_inclusion [DecidableEq H] (S : Substrate H A)
    (v : LightValidation H A) (relayId : Nat) (relay : RelayState H A)
    (hrelay : v.trackedRelays relayId = some relay) (header : Header H) (x y : Bytes)
    (rest : List Bytes) :
    (relay.verifyTxInclusion = x :: y :: rest →
      checkXtInclusion S v relayId ⟨header, [x, x]⟩ =
        some (.ok (), v.setRelay relayId { relay with verifyTxInclusion := rest })) ∧
    (relay.verifyTxInclusion = [x] → checkXtInclusion S v relayId ⟨header, [x, x]⟩ = none) := by
  constructor
  · intro hpending
    rw [checkXtInclusion_found S hrelay (by simp [hpending]), hpending, foundXts_dup,
      sortDesc_zero_zero]
    -- `remove(0)` takes `x`, then `y`
    rfl
  · intro hpending
    rw [checkXtInclusion_found S hrelay (by simp [hpending]), hpending, foundXts_dup,
      sortDesc_zero_zero]
    rfl

/-- A substrate whose extrinsic hash is the extrinsic's length. -/
def lengthSubstrate : Substrate Nat Nat where
  hash header := header.number
  hashOfExtrinsic xt := xt.length
  decodeConsensusLog _ := none
  checkProof _ _ _ := .ok none
  encodeAuthorityList _ := []
  voterSetNew _ := true
  verifyFinalizes _ _ _ _ _ := true

/-- Relay `1` on header `0`, waiting for the inclusion of `[1]` and then `[2, 2]`. -/
def pendingRelay : RelayState Nat Nat :=
  { RelayState.new lengthSubstrate.hash ⟨0, 0, 0, 0, []⟩ [] with
    verifyTxInclusion := [[1], [2, 2]] }

/-- The light client tracking `pendingRelay` as relay `1`. -/
def pendingValidation : LightValidation Nat Nat :=
  { (LightValidation.new : LightValidation Nat Nat).setRelay 1 pendingRelay with numRelays := 1 }

/-- A block carrying `[1]` twice clears `[2, 2]`, whose hash (`2`) no extrinsic of the block
    has. -/
theorem duplicate_xt_clears_unrelated :
    lengthSubstrate.hashOfExtrinsic [2, 2] ≠ lengthSubstrate.hashOfExtrinsic [1] ∧
    checkXtInclusion lengthSubstrate pendingValidation 1 ⟨⟨0, 1, 0, 0, []⟩, [[1], [1]]⟩ =
      some (.ok (), pendingValidation.setRelay 1 { pendingRelay with verifyTxInclusion := [] }) :=
  ⟨by decide, (duplicate_xt_breaks_inclusion lengthSubstrate pendingValidation 1 pendingRelay
    rfl ⟨0, 1, 0, 0, []⟩ [1] [2, 2] []).1 rfl⟩

/-! ## §3. Extrinsics with distinct hashes. -/

section Distinct

open EncointerWorker.Lib

/-- **`Vec::remove` highest first.**  Removing positions in decreasing order, each below the
    length, keeps the entries at the other positions, in order: by induction on the
    positions, each removal lies above all that follow (`keepFrom_eraseIdx`). -/
theorem removeEach_of_desc {α : Type} : ∀ (is : List Nat) (l : List α), is.Pairwise (· > ·) →
    (∀ i ∈ is, i < l.length) → removeEach is l = some (keepFrom (fun j => decide (j ∉ is)) 0 l)
  | [], l, _, _ => by
    rw [removeEach, keepFrom_of_forall _ (fun j _ => by simp) l]
  | i :: is, l, hdesc, hlt => by
    obtain ⟨hbelow, hdesc'⟩ := List.pairwise_cons.mp hdesc
    have hi : i < l.length := hlt i List.mem_cons_self
    have hlt' : ∀ j ∈ is, j < (l.eraseIdx i).length := by
      intro j hj
      have hji : j < i := hbelow j hj
      rw [List.length_eraseIdx_of_lt hi]
      omega
    have habove : ∀ j, i ≤ j → decide (j ∉ is) = true := by
      intro j hj
      have hnot : j ∉ is := fun hmem => Nat.lt_irrefl i (Nat.lt_of_le_of_lt hj (hbelow j hmem))
      simp [hnot]
    rw [removeEach, if_pos hi, removeEach_of_desc is _ hdesc' hlt', keepFrom_eraseIdx _ hi habove]
    -- the two predicates agree: outside `is` and not `i`
    congr 2
    funext j
    by_cases hj : j = i <;> simp [hj]

variable [DecidableEq H] (S : Substrate H A)

/-- The position an extrinsic finds holds a pending entry with its hash. -/
theorem hash_of_findIdx? {pending : List Bytes} {xt : Bytes} {j : Nat}
    (h : pending.findIdx? (fun p => S.hashOfExtrinsic xt == S.hashOfExtrinsic p) = some j) :
    ∃ hj : j < pending.length, S.hashOfExtrinsic pending[j] = S.hashOfExtrinsic xt := by
  obtain ⟨hj, hfound, -⟩ := List.findIdx?_eq_some_iff_getElem.mp h
  exact ⟨hj, (beq_iff_eq.mp hfound).symm⟩

/-- Extrinsics with distinct hashes find distinct positions. -/
theorem foundXts_nodup (pending : List Bytes) {xts : List Bytes}
    (hxts : (xts.map S.hashOfExtrinsic).Nodup) : (foundXts S pending xts).Nodup := by
  have hne : xts.Pairwise fun a b => S.hashOfExtrinsic a ≠ S.hashOfExtrinsic b :=
    List.pairwise_map.mp hxts
  unfold foundXts
  refine hne.filterMap _ ?_
  intro a b hab j hj j' hj' hjj
  obtain ⟨hlt, ha⟩ := hash_of_findIdx? S hj
  obtain ⟨hlt', hb⟩ := hash_of_findIdx? S hj'
  subst hjj
  exact hab (ha.symm.trans hb)

/-- Every position found lies in the pending list. -/
theorem lt_of_mem_foundXts {pending xts : List Bytes} {j : Nat}
    (hj : j ∈ foundXts S pending xts) : j < pending.length := by
  obtain ⟨xt, -, hfind⟩ := List.mem_filterMap.mp hj
  exact (hash_of_findIdx? S hfind).1

/-- `sortDesc` of distinct positions is strictly decreasing. -/
theorem sortDesc_desc {is : List Nat} (hnodup : is.Nodup) : (sortDesc is).Pairwise (· > ·) := by
  have hsorted : (sortDesc is).Pairwise fun a b => decide (b ≤ a) = true :=
    List.pairwise_mergeSort (fun a b c hab hbc => by simp at hab hbc ⊢; omega)
      (fun a b => by simp only [Bool.or_eq_true, decide_eq_true_eq]; omega) is
  have hnodup' : (sortDesc is).Nodup := (List.mergeSort_perm is _).nodup_iff.mpr hnodup
  exact (hsorted.and hnodup').imp fun ⟨hle, hne⟩ => by
    simp only [decide_eq_true_eq] at hle
    omega

/-- **No panic on distinct extrinsics.**  When the block's extrinsics have distinct hashes,
    `check_xt_inclusion` on a tracked relay returns `Ok`, the pending extrinsics left being
    those at the positions no extrinsic of the block found. -/
theorem checkXtInclusion_distinct {v : LightValidation H A} {relayId : Nat}
    {relay : RelayState H A} (hrelay : v.trackedRelays relayId = some relay) (block : Block H)
    (hblock : (block.extrinsics.map S.hashOfExtrinsic).Nodup) :
    checkXtInclusion S v relayId block = some (.ok (), v.setRelay relayId
      { relay with
        verifyTxInclusion :=
          keepFrom (fun j => decide (j ∉ foundXts S relay.verifyTxInclusion block.extrinsics))
            0 relay.verifyTxInclusion }) := by
  by_cases hne : relay.verifyTxInclusion = []
  · -- nothing pending: the relay is written back as it was
    have hsame : { relay with
        verifyTxInclusion :=
          keepFrom (fun j => decide (j ∉ foundXts S relay.verifyTxInclusion block.extrinsics))
            0 relay.verifyTxInclusion } = relay := by
      rw [hne, keepFrom_nil, ← hne]
    rw [hsame, setRelay_self hrelay]
    simp [checkXtInclusion, hrelay, hne]
  · have hdesc := sortDesc_desc (foundXts_nodup S relay.verifyTxInclusion hblock)
    have hlt : ∀ i ∈ sortDesc (foundXts S relay.verifyTxInclusion block.extrinsics),
        i < relay.verifyTxInclusion.length := fun i hi =>
      lt_of_mem_foundXts S (List.mem_mergeSort.mp hi)
    rw [checkXtInclusion_found S hrelay hne, removeEach_of_desc _ _ hdesc hlt, Option.map_some]
    -- membership in the sorted positions is membership in the positions found
    simp only [sortDesc, List.mem_mergeSort]

/-- With distinct pending hashes, a position is found exactly when its entry's hash is one of
    the block's. -/
theorem mem_foundXts_iff {pending xts : List Bytes}
    (hpending : (pending.map S.hashOfExtrinsic).Nodup) {j : Nat} (hj : j < pending.length) :
    j ∈ foundXts S pending xts ↔ S.hashOfExtrinsic pending[j] ∈ xts.map S.hashOfExtrinsic := by
  constructor
  · intro hmem
    obtain ⟨xt, hxt, hfind⟩ := List.mem_filterMap.mp hmem
    obtain ⟨_, hhash⟩ := hash_of_findIdx? S hfind
    exact List.mem_map.mpr ⟨xt, hxt, hhash.symm⟩
  · intro hmem
    obtain ⟨xt, hxt, hhash⟩ := List.mem_map.mp hmem
    refine List.mem_filterMap.mpr ⟨xt, hxt, List.findIdx?_eq_some_iff_getElem.mpr ⟨hj, ?_, ?_⟩⟩
    · simp [hhash]
    · -- an earlier pending entry has another hash
      intro k hkj
      have hk : k < (pending.map S.hashOfExtrinsic).length := by simp; omega
      have hjm : j < (pending.map S.hashOfExtrinsic).length := by simp; omega
      have hdiff : ¬(pending.map S.hashOfExtrinsic)[k] = (pending.map S.hashOfExtrinsic)[j] :=
        fun h => Nat.ne_of_lt hkj (hpending.getElem_inj_iff.mp h)
      simp only [List.getElem_map] at hdiff
      simp only [beq_iff_eq]
      exact fun h => hdiff (h.symm.trans hhash)

/-- With distinct pending hashes, what the removals keep is a filter by hash. -/
theorem keepFrom_foundXts_eq_filter {pending xts : List Bytes}
    (hpending : (pending.map S.hashOfExtrinsic).Nodup) :
    keepFrom (fun j => decide (j ∉ foundXts S pending xts)) 0 pending =
      pending.filter fun xt => S.hashOfExtrinsic xt ∉ xts.map S.hashOfExtrinsic :=
  keepFrom_eq_filter _ _ fun j hj => by
    rw [Nat.zero_add]
    exact decide_eq_decide.mpr (not_congr (mem_foundXts_iff S hpending hj))

/-- **`check_xt_inclusion` clears exactly what the block includes.**  On a tracked relay,
    when the block's extrinsics have distinct hashes and so do the pending ones, the call
    returns `Ok` and the pending extrinsics left are those whose hash no extrinsic of the
    block has, in their order; the relay's head and hashes stay. -/
theorem check_xt_inclusion_clears_included {v : LightValidation H A} {relayId : Nat}
    {relay : RelayState H A} (hrelay : v.trackedRelays relayId = some relay) (block : Block H)
    (hblock : (block.extrinsics.map S.hashOfExtrinsic).Nodup)
    (hpending : (relay.verifyTxInclusion.map S.hashOfExtrinsic).Nodup) :
    checkXtInclusion S v relayId block = some (.ok (), v.setRelay relayId
      { relay with
        verifyTxInclusion := relay.verifyTxInclusion.filter
          fun xt => S.hashOfExtrinsic xt ∉ block.extrinsics.map S.hashOfExtrinsic }) := by
  rw [checkXtInclusion_distinct S hrelay block hblock, keepFrom_foundXts_eq_filter S hpending]

/-- Relay `1` of `pendingValidation` waits for `[1]` and `[2, 2]`: a block carrying `[3, 3]`,
    of `[2, 2]`'s hash, and `[4, 4, 4]`, of no pending hash, clears `[2, 2]` alone. -/
theorem inclusion_clears_matching_hash :
    (([[3, 3], [4, 4, 4]] : List Bytes).map lengthSubstrate.hashOfExtrinsic).Nodup ∧
      (pendingRelay.verifyTxInclusion.map lengthSubstrate.hashOfExtrinsic).Nodup ∧
      checkXtInclusion lengthSubstrate pendingValidation 1 ⟨⟨0, 1, 0, 0, []⟩, [[3, 3], [4, 4, 4]]⟩ =
        some (.ok (), pendingValidation.setRelay 1 { pendingRelay with verifyTxInclusion := [[1]] }) :=
  ⟨by decide, by decide,
    check_xt_inclusion_clears_included lengthSubstrate (rfl : pendingValidation.trackedRelays 1 =
      some pendingRelay) ⟨⟨0, 1, 0, 0, []⟩, [[3, 3], [4, 4, 4]]⟩ (by decide) (by decide)⟩

end Distinct

end EncointerWorker.Relay
