import Mathlib.Data.List.Induction
import Mathlib.Data.List.Nodup
import EncointerWorker.Lib.HashChain
import EncointerWorker.Relay.Types

/-!
  EncointerWorker.Worker.Sync — how the untrusted worker feeds the enclave the part of the
  chain it has not seen (`sync_chain_relay` in `worker/src/main.rs`).

  The worker asks the node for the finalized head `F`, and unless it is the last synced
  head, walks back from it by parent hashes, fetching each parent, until it reaches a block
  whose parent is the last synced head.  It reverses what it fetched and hands it to the
  ECALL `enclave_sync_chain_relay` in chunks of `BLOCK_SYNC_BATCH_SIZE` blocks.

  The node is a function from block hash to signed block (`NodeApi`), consistent with the
  hashes and numbers of its blocks.  The walk is a `while` loop; the model bounds it by fuel,
  and the results hold for every fuel above the length of the missing chain.  The ECALL is
  a parameter: `ecall chunk` is whether it, and sending the extrinsics it returns, went
  through; an `Err` is unwrapped into a panic.

  Main results:
    * `links_numbers` — the blocks of a linked run of the node's blocks are numbered one
      after the other.
    * `walkBack_links` — the walk fetches exactly the run back to the last synced head.
    * `worker_feeds_missing_chain` — the chunks passed are the missing chain in order, each
      of at most `BLOCK_SYNC_BATCH_SIZE` blocks, and the worker returns `F`'s header.
-/

namespace EncointerWorker.Worker

open EncointerWorker.Relay EncointerWorker.Lib

variable {H α : Type}

/-! ## §1. The node. -/

/-- The node API (`substrate_api_client::Api`): blocks by hash, each stored under its own
    hash and numbered one above its parent. -/
structure NodeApi (H : Type) where
  /-- `Header::hash`. -/
  hash : Header H → H
  /-- `api.get_signed_block(Some(hash))`. -/
  getSignedBlock : H → Option (SignedBlock H)
  /-- `api.get_finalized_head()`. -/
  getFinalizedHead : Option H
  hash_getSignedBlock : ∀ {x : H} {b : SignedBlock H}, getSignedBlock x = some b →
    hash b.block.header = x
  number_parent : ∀ {x : H} {b p : SignedBlock H}, getSignedBlock x = some b →
    getSignedBlock b.block.header.parentHash = some p →
    b.block.header.number = p.block.header.number + 1

/-- The hash and the parent hash of a signed block. -/
def NodeApi.blockHash (api : NodeApi H) (b : SignedBlock H) : H := api.hash b.block.header

def blockParent (b : SignedBlock H) : H := b.block.header.parentHash

/-- `last` is an ancestor of the block with hash `f`: the node holds `last`, and `cs`, a run
    of the node's blocks (oldest first), links `last` to `f` by parent hashes. -/
structure Ancestry (api : NodeApi H) (last : Header H) (f : H) (cs : List (SignedBlock H)) :
    Prop where
  last_known : ∃ b, api.getSignedBlock (api.hash last) = some b ∧ b.block.header = last
  known : ∀ c ∈ cs, api.getSignedBlock (api.blockHash c) = some c
  links : Links api.blockHash blockParent (api.hash last) cs f

/-! ## §2. The worker's loop. -/

/-- `BLOCK_SYNC_BATCH_SIZE`. -/
def BLOCK_SYNC_BATCH_SIZE : Nat := 1000

/-- `slice::chunks(size)`, for a positive `size`: consecutive pieces of `size` elements, the
    last one possibly shorter. -/
def chunks (size : Nat) (hsize : 0 < size) : List α → List (List α)
  | [] => []
  | x :: xs => (x :: xs).take size :: chunks size hsize ((x :: xs).drop size)
termination_by xs => xs.length
decreasing_by simp only [List.length_drop, List.length_cons]; omega

variable [DecidableEq H]

/-- The `while` loop from `head`: fetch the parent until the head's parent is `lastHash`,
    pushing each fetched block onto `blocksToSync`.  `none` is the panic of `unwrap` on a
    block the node does not have, or the fuel running out. -/
def walkBack (api : NodeApi H) (lastHash : H) :
    Nat → SignedBlock H → List (SignedBlock H) → Option (List (SignedBlock H))
  | 0, _, _ => none
  | fuel + 1, head, blocksToSync =>
    if head.block.header.parentHash ≠ lastHash then
      match api.getSignedBlock head.block.header.parentHash with
      | none => none
      | some head => walkBack api lastHash fuel head (blocksToSync ++ [head])
    else some blocksToSync

/-- The loop over the chunks: the chunks handed to `enclave_sync_chain_relay`, and whether
    the loop finished (an ECALL that fails is unwrapped into a panic). -/
def feedChunks (ecall : List (SignedBlock H) → Bool) :
    List (List (SignedBlock H)) → List (List (SignedBlock H)) × Bool
  | [] => ([], true)
  | chunk :: rest =>
    if ecall chunk then
      let (passed, finished) := feedChunks ecall rest
      (chunk :: passed, finished)
    else ([chunk], false)

/-- A run of the worker's `sync_chain_relay`: the chunks passed to the enclave, and the
    header returned (`none` when the worker panics). -/
structure SyncRun (H : Type) where
  passed : List (List (SignedBlock H))
  result : Option (Header H)

/-- `sync_chain_relay(eid, api, last_synced_head)`. -/
def syncChainRelay (api : NodeApi H) (ecall : List (SignedBlock H) → Bool)
    (lastSyncedHead : Header H) (fuel : Nat) : SyncRun H :=
  match api.getFinalizedHead.bind api.getSignedBlock with
  | none => ⟨[], none⟩
  | some currHead =>
    -- "we are already up to date, do nothing"
    if api.hash currHead.block.header = api.hash lastSyncedHead then
      ⟨[], some currHead.block.header⟩
    else
      match walkBack api (api.hash lastSyncedHead) fuel currHead [currHead] with
      | none => ⟨[], none⟩
      | some blocksToSync =>
        let (passed, finished) :=
          feedChunks ecall (chunks BLOCK_SYNC_BATCH_SIZE (by decide) blocksToSync.reverse)
        ⟨passed, if finished then some currHead.block.header else none⟩

/-! ## §3. Chunks. -/

section Chunks

variable {size : Nat} {hsize : 0 < size}

@[simp] theorem chunks_nil : chunks size hsize ([] : List α) = [] := by
  rw [chunks]

theorem flatten_chunks (xs : List α) : (chunks size hsize xs).flatten = xs := by
  induction xs using chunks.induct size hsize with
  | case1 => simp
  | case2 x xs ih => rw [chunks, List.flatten_cons, ih, List.take_append_drop]

theorem mem_chunks {xs : List α} {chunk : List α} (h : chunk ∈ chunks size hsize xs) :
    chunk ≠ [] ∧ chunk.length ≤ size := by
  induction xs using chunks.induct size hsize with
  | case1 => simp at h
  | case2 x xs ih =>
    rw [chunks, List.mem_cons] at h
    rcases h with rfl | h
    · exact ⟨by simp [List.take_eq_nil_iff]; omega, List.length_take_le _ _⟩
    · exact ih h

omit [DecidableEq H] in
theorem feedChunks_all {ecall : List (SignedBlock H) → Bool} (hecall : ∀ chunk, ecall chunk = true)
    (cs : List (List (SignedBlock H))) : feedChunks ecall cs = (cs, true) := by
  induction cs with
  | nil => rfl
  | cons chunk rest ih => simp only [feedChunks, hecall, if_true, ih]

omit [DecidableEq H] in
/-- The chunks passed are a prefix of the chunks; the loop finishes only when it passed them
    all. -/
theorem feedChunks_prefix (ecall : List (SignedBlock H) → Bool) (cs : List (List (SignedBlock H))) :
    (feedChunks ecall cs).1 <+: cs ∧ ((feedChunks ecall cs).2 = true → (feedChunks ecall cs).1 = cs) := by
  induction cs with
  | nil => exact ⟨List.prefix_refl _, fun _ => rfl⟩
  | cons chunk rest ih =>
    by_cases hchunk : ecall chunk = true
    · simp only [feedChunks, hchunk, if_true]
      exact ⟨List.cons_prefix_cons.mpr ⟨rfl, ih.1⟩, fun hfin => by rw [ih.2 hfin]⟩
    · simp only [feedChunks, hchunk]
      exact ⟨List.cons_prefix_cons.mpr ⟨rfl, List.nil_prefix⟩, by simp⟩

end Chunks

/-! ## §4. The walk. -/

section Walk

variable {api : NodeApi H}

omit [DecidableEq H] in
/-- **The run is numbered consecutively**: its blocks are numbered `last + 1, last + 2, …`,
    by the node's numbering of parents, one block at a time. -/
theorem links_numbers {last : Header H} {b : SignedBlock H}
    (hlast : api.getSignedBlock (api.hash last) = some b) (hb : b.block.header = last) :
    ∀ {cs : List (SignedBlock H)} {f : H}, (∀ c ∈ cs, api.getSignedBlock (api.blockHash c) = some c) →
      Links api.blockHash blockParent (api.hash last) cs f →
      cs.map (fun c => c.block.header.number) = List.range' (last.number + 1) cs.length := by
  intro cs
  induction cs generalizing last b with
  | nil => intros; rfl
  | cons c cs ih =>
    intro f hknown hlinks
    rw [links_cons] at hlinks
    obtain ⟨hparent, hrest⟩ := hlinks
    have hc := hknown c (by simp)
    -- the first block sits one above `last`, the rest one above each other
    have hnum : c.block.header.number = last.number + 1 := by
      have hstep := api.number_parent hc (by rw [show c.block.header.parentHash = api.hash last
        from hparent, hlast])
      rw [hstep, hb]
    have htail := ih hc rfl (fun d hd => hknown d (List.mem_cons_of_mem c hd)) hrest
    rw [List.map_cons, htail, hnum, List.length_cons, List.range'_succ]

omit [DecidableEq H] in
/-- No block of the run is `last`: each is numbered above it. -/
theorem blockHash_ne_last {last : Header H} {f : H} {cs : List (SignedBlock H)}
    (hanc : Ancestry api last f cs) : ∀ c ∈ cs, api.blockHash c ≠ api.hash last := by
  intro c hc heq
  obtain ⟨b, hlast, hb⟩ := hanc.last_known
  have hnums := links_numbers hlast hb hanc.known hanc.links
  -- the node holds one block under `last`'s hash: `c` would be numbered as `last`
  have hcb : c = b := by
    have hget := hanc.known c hc
    rw [heq, hlast] at hget
    exact (Option.some.inj hget).symm
  have hmem : c.block.header.number ∈ List.range' (last.number + 1) cs.length := by
    rw [← hnums]
    exact List.mem_map_of_mem hc
  rw [List.mem_range'_1, hcb, hb] at hmem
  omega

/-- **The walk fetches the run.**  From the newest block `head` of a run `pre ++ [head]`
    linked to `lastHash`, with fuel beyond `pre`, the walk pushes the blocks of `pre`, newest
    first.  By induction on `pre` from its newest end. -/
theorem walkBack_links {lastHash : H} (pre : List (SignedBlock H)) :
    ∀ (b : H) (head : SignedBlock H) (acc : List (SignedBlock H)) (fuel : Nat),
      Links api.blockHash blockParent lastHash (pre ++ [head]) b →
      (∀ p ∈ pre, api.getSignedBlock (api.blockHash p) = some p ∧ api.blockHash p ≠ lastHash) →
      pre.length < fuel →
      walkBack api lastHash fuel head acc = some (acc ++ pre.reverse) := by
  induction pre using List.reverseRecOn with
  | nil =>
    intro b head acc fuel hlinks _ hfuel
    obtain ⟨fuel, rfl⟩ : ∃ n, fuel = n + 1 := ⟨fuel - 1, by simp at hfuel; omega⟩
    -- `head` sits on `lastHash`: the loop stops at once
    have hparent : head.block.header.parentHash = lastHash := by
      simp only [List.nil_append, links_cons, links_nil, blockParent] at hlinks
      exact hlinks.1
    simp [walkBack, hparent]
  | append_singleton pre p ih =>
    intro b head acc fuel hlinks hpre hfuel
    obtain ⟨fuel, rfl⟩ : ∃ n, fuel = n + 1 := ⟨fuel - 1, by simp at hfuel; omega⟩
    rw [links_append] at hlinks
    obtain ⟨m, hfirst, hlast⟩ := hlinks
    -- `head` sits on `m`, the hash of `p`, which the node holds and which is not `lastHash`
    have hm : m = api.blockHash p := by
      have hsplit := hfirst
      rw [links_append] at hsplit
      obtain ⟨m', -, hp⟩ := hsplit
      simp only [links_cons, links_nil] at hp
      exact hp.2.symm
    have hparent : head.block.header.parentHash = api.blockHash p := by
      simp only [links_cons, links_nil, blockParent] at hlast
      rw [← hm]
      exact hlast.1
    obtain ⟨hp, hpne⟩ := hpre p (by simp)
    have hrest := ih m p (acc ++ [p]) fuel hfirst
      (fun q hq => hpre q (List.mem_append_left _ hq)) (by simp at hfuel; omega)
    rw [walkBack, if_pos (by rw [hparent]; exact hpne), hparent, hp]
    dsimp only
    rw [hrest]
    simp

end Walk

/-! ## §5. What the worker passes to the enclave. -/

/-- **The worker feeds the enclave the missing chain.**  Let `last` be an ancestor of the
    finalized head `f`, through the run `cs`, and let every ECALL go through.  For every fuel
    beyond the run, the chunks passed to `enclave_sync_chain_relay` concatenate to `cs`, the
    blocks numbered `last + 1` up to `F`, each once, the first on top of `last` and each on
    top of the one before; every chunk is non-empty and holds at most
    `BLOCK_SYNC_BATCH_SIZE` blocks; the worker returns `F`'s header; and when `last` is `F`,
    nothing is passed. -/
theorem worker_feeds_missing_chain (api : NodeApi H) (ecall : List (SignedBlock H) → Bool)
    (hecall : ∀ chunk, ecall chunk = true) (last : Header H) {f : H}
    (hf : api.getFinalizedHead = some f) {cs : List (SignedBlock H)}
    (hanc : Ancestry api last f cs) (fuel : Nat) (hfuel : cs.length < fuel) :
    let run := syncChainRelay api ecall last fuel
    run.passed.flatten = cs ∧
    cs.map (fun c => c.block.header.number) = List.range' (last.number + 1) cs.length ∧
    cs.Nodup ∧
    Links api.blockHash blockParent (api.hash last) run.passed.flatten f ∧
    (∀ chunk ∈ run.passed, chunk ≠ [] ∧ chunk.length ≤ BLOCK_SYNC_BATCH_SIZE) ∧
    (∃ F, api.getSignedBlock f = some F ∧ api.blockHash F = f ∧ run.result = some F.block.header) ∧
    (api.hash last = f → run.passed = []) := by
  intro run
  obtain ⟨b, hlast, hb⟩ := hanc.last_known
  have hnums := links_numbers hlast hb hanc.known hanc.links
  have hnodup : cs.Nodup := by
    have hmap : (cs.map fun c => c.block.header.number).Nodup := by
      rw [hnums]
      exact List.nodup_range'
    exact List.Nodup.of_map _ hmap
  have hne := blockHash_ne_last hanc
  -- the run is empty exactly when `last` is `F`; otherwise `F` is its newest block
  have hpassed : run.passed = chunks BLOCK_SYNC_BATCH_SIZE (by decide) cs ∧
      ∃ F, api.getSignedBlock f = some F ∧ api.blockHash F = f ∧ run.result = some F.block.header := by
    rcases List.eq_nil_or_concat' cs with rfl | ⟨pre, head, rfl⟩
    · -- `last` is `F`: nothing to sync
      have hlf : api.hash last = f := hanc.links
      obtain ⟨F, hF, hFhash⟩ : ∃ F, api.getSignedBlock f = some F ∧ api.blockHash F = f := by
        refine ⟨b, by rw [← hlf, hlast], ?_⟩
        show api.hash b.block.header = f
        rw [hb, hlf]
      refine ⟨?_, F, hF, hFhash, ?_⟩ <;>
        simp only [run, syncChainRelay, hf, Option.bind_some, hF, show api.hash F.block.header =
          api.hash last from hFhash.trans hlf.symm, if_true, chunks_nil]
    · have hlinks := hanc.links
      have hheadHash : api.blockHash head = f := by
        rw [links_append] at hlinks
        obtain ⟨m, -, hm⟩ := hlinks
        simpa using hm.2
      have hhead := hanc.known head (by simp)
      rw [hheadHash] at hhead
      have hwalk := walkBack_links pre f head [head] fuel hlinks
        (fun p hp => ⟨hanc.known p (List.mem_append_left _ hp),
          hne p (List.mem_append_left _ hp)⟩) (by simp at hfuel; omega)
      have hfresh : api.hash head.block.header ≠ api.hash last :=
        hne head (by simp)
      refine ⟨?_, head, hhead, hheadHash, ?_⟩ <;>
        simp only [run, syncChainRelay, hf, Option.bind_some, hhead, hfresh, if_false, hwalk,
          List.reverse_cons, List.reverse_reverse, List.singleton_append, feedChunks_all hecall,
          if_true]
  obtain ⟨hchunks, hresult⟩ := hpassed
  refine ⟨by rw [hchunks, flatten_chunks], hnums, hnodup, ?_, ?_, hresult, ?_⟩
  · rw [hchunks, flatten_chunks]
    exact hanc.links
  · intro chunk hchunk
    rw [hchunks] at hchunk
    exact mem_chunks hchunk
  · intro hlf
    -- a non-empty run would end at a block hashed as `last`
    rw [hchunks]
    rcases List.eq_nil_or_concat' cs with rfl | ⟨pre, head, rfl⟩
    · exact chunks_nil
    · have hheadHash : api.blockHash head = f := by
        have hlinks := hanc.links
        rw [links_append] at hlinks
        obtain ⟨m, -, hm⟩ := hlinks
        simpa using hm.2
      exact absurd (hheadHash.trans hlf.symm) (hne head (by simp))

/-! ## §6. A line of blocks. -/

/-- Block `x` of a chain whose block hashes are the block numbers. -/
def lineBlock (x : Nat) : SignedBlock Nat := ⟨⟨⟨x - 1, x, 0, 0, []⟩, []⟩, none⟩

/-- A node holding blocks `1`, `2`, `3`, finalized at `3`. -/
def lineApi : NodeApi Nat where
  hash header := header.number
  getSignedBlock x := if 1 ≤ x ∧ x ≤ 3 then some (lineBlock x) else none
  getFinalizedHead := some 3
  hash_getSignedBlock := by
    intro x b h
    split at h
    · cases h
      rfl
    · cases h
  number_parent := by
    intro x b p hb hp
    split at hb
    · next hx =>
      cases hb
      split at hp
      · next hx' =>
        cases hp
        show x = x - 1 + 1
        omega
      · cases hp
    · cases hb

theorem lineAncestry : Ancestry lineApi (lineBlock 1).block.header 3 [lineBlock 2, lineBlock 3] where
  last_known := ⟨lineBlock 1, rfl, rfl⟩
  known := by decide
  links := ⟨rfl, rfl, rfl⟩

/-- Synced up to block `1` with `3` finalized, the worker passes blocks `2` and `3`. -/
theorem line_sync_passes_missing_blocks :
    (syncChainRelay lineApi (fun _ => true) (lineBlock 1).block.header 3).passed.flatten =
      [lineBlock 2, lineBlock 3] :=
  (worker_feeds_missing_chain lineApi (fun _ => true) (fun _ => rfl) (lineBlock 1).block.header
    rfl lineAncestry 3 (by decide)).1

end EncointerWorker.Worker
