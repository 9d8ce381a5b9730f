import EncointerWorker.Enclave.Trust

/-!
  EncointerWorker.Enclave.Ledger — an encointer chain for the runs of `Persist` and `Calls`:
  the balances and ceremonies pallets as a runtime over the shard state, a state codec the
  enclave's files round-trip through, and a chain that registers currencies `1` and `2`.

  The runtime checks what the pallets check for the calls these runs make: a transfer needs
  the sender's balance in the currency, and a registration a currency listed in
  `CurrencyIdentifiers`, which `handle_call_worker_xt` syncs from the chain before it executes
  the call.  Account `1` starts with `10` of currency `1` on shard `1`.
-/

namespace EncointerWorker.Enclave

open EncointerWorker.Relay EncointerWorker.Stf EncointerWorker.Lib EncointerWorker.Lib.AssocMap

/-! ## §1. The pallets. -/

/-- `EncointerBalances::Balance(cid, account)`, one byte. -/
def balanceKey (cid account : Nat) : Bytes :=
  storageDoubleMapKey toyCodec "EncointerBalances" "Balance" (toyCodec.encodeCid cid)
    .blake2_128Concat (toyCodec.encodeAccount account) .blake2_128Concat

/-- `EncointerCeremonies::ParticipantIndex(cid, account)`. -/
def participantKey (cid account : Nat) : Bytes :=
  storageDoubleMapKey toyCodec "EncointerCeremonies" "ParticipantIndex" (toyCodec.encodeCid cid)
    .blake2_128Concat (toyCodec.encodeAccount account) .blake2_128Concat

/-- `EncointerCurrencies::CurrencyIdentifiers`, the key `get_storage_hashes_to_update` asks for
    before a registration; its value lists one byte per currency. -/
def currencyIdentifiersKey : Bytes := storageValueKey toyCodec "EncointerCurrencies" "CurrencyIdentifiers"

/-- The balance of `account` in `cid`; `0` without an entry. -/
def balanceOf (st : State) (cid account : Nat) : Nat :=
  ((get st (balanceKey cid account)).bind List.head?).elim 0 UInt8.toNat

/-- The pallets: `transfer` fails on a negative value or an insufficient balance and moves the
    value otherwise; `register_participant` fails for a currency that `CurrencyIdentifiers`
    does not list and records the participant otherwise.  Attestations and reputation grants
    are rejected; the phase hook leaves the state. -/
def ledgerRuntime : Runtime Nat Nat where
  transfer from_ to_ cid value st :=
    if value < 0 ∨ (balanceOf st cid from_ : Int) < value then .error ()
    else
      let st := insert st (balanceKey cid from_) [(balanceOf st cid from_ - value.toNat).toUInt8]
      .ok (insert st (balanceKey cid to_) [(balanceOf st cid to_ + value.toNat).toUInt8])
  registerParticipant from_ cid _ st :=
    if cid ∈ ((get st currencyIdentifiersKey).getD []).map UInt8.toNat then
      .ok (insert st (participantKey cid from_) [1])
    else .error ()
  registerAttestations _ _ _ := .error ()
  grantReputation _ _ _ _ := .error ()
  onCeremonyPhaseChange _ st := st
  getState _ _ := none

/-! ## §2. The state codec. -/

/-- A state file's plaintext: each entry's key and value, each behind its length byte. -/
def encodeEntries (st : State) : Bytes :=
  st.flatMap fun e => (e.1.length.toUInt8 :: e.1) ++ (e.2.length.toUInt8 :: e.2)

/-- Reads `encodeEntries` back, one entry per unit of fuel. -/
def decodeEntries : Nat → Bytes → State
  | 0, _ => []
  | _ + 1, [] => []
  | fuel + 1, n :: rest =>
    let key := rest.take n.toNat
    let rest := rest.drop n.toNat
    rest.head?.elim [] fun m =>
      (key, (rest.drop 1).take m.toNat) :: decodeEntries fuel ((rest.drop 1).drop m.toNat)

/-! ## §3. The chain and the enclave. -/

/-- The chain's storage: currencies `1` and `2` are registered, nothing else is set. -/
def ledgerChain (key : Bytes) : Option Bytes :=
  if key = currencyIdentifiersKey then some [1, 2] else none

/-- A host that answers a request from the chain, with a proof. -/
def answerLedger : WorkerRequest Nat → WorkerResponse
  | .chainStorage key _ => .chainStorage key (ledgerChain key) (some [])

/-- The enclave on that chain: every proof opens to the chain's value, the shards are the
    registered currencies (`shards_key_hash` is the key of `CurrencyIdentifiers`), and every
    extrinsic is a `call_worker` for shard `1` whose request decrypts to `call`. -/
def ledgerEnv (call : TrustedCallSigned Nat Nat) : Env Nat Nat Nat :=
  { toyEnv with
    S := { toySubstrate with checkProof := fun _ key _ => .ok (ledgerChain key) }
    R := ledgerRuntime
    host := fun _ requests => .ok (requests.map answerLedger)
    decodeShards := fun bytes => some (bytes.map UInt8.toNat)
    decodeCallWorker := fun _ => some ⟨[SUBSRATEE_REGISTRY_MODULE, CALL_WORKER], ⟨1, [7]⟩⟩
    decodeTrustedCallSigned := fun _ => some call
    encodeState := encodeEntries
    decodeState := fun bytes => decodeEntries bytes.length bytes }

/-- A transfer of `5` of currency `1` from account `1` to account `2`, nonce `0`. -/
def transferCall : TrustedCallSigned Nat Nat := ⟨.balanceTransfer 1 2 1 5, 0, []⟩

/-- Account `1` holds `10` of currency `1`. -/
def fundedState : State := [(balanceKey 1 1, [10])]

/-- `genesisWorld` with shard `1`'s file holding `fundedState`. -/
def fundedWorld : World Nat Nat :=
  { genesisWorld with
    shardFiles := fun s =>
      if s = 1 then some (stateCiphertext (ledgerEnv transferCall) genesisWorld.aesKeyIv fundedState)
      else none }

end EncointerWorker.Enclave
