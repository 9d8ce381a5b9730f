import EncointerWorker.Lib.HashChain
import EncointerWorker.Lib.Transition
import EncointerWorker.Lib.Positions
import EncointerWorker.Lib.AssocMap
import EncointerWorker.Lib.Moves
import EncointerWorker.Lib.Code
import EncointerWorker.Lib.Scale
import EncointerWorker.Lib.Search
import EncointerWorker.Lib.Der
import EncointerWorker.Lib.Chase
import EncointerWorker.Lib.Utf8
import EncointerWorker.Relay.Types
import EncointerWorker.Relay.LightValidation
import EncointerWorker.Relay.Invariant
import EncointerWorker.Relay.Runs
import EncointerWorker.Relay.Schedule
import EncointerWorker.Relay.Inclusion
import EncointerWorker.Relay.Justification
import EncointerWorker.Relay.Finality
import EncointerWorker.Stf.Types
import EncointerWorker.Stf.Sgx
import EncointerWorker.Stf.Encoding
import EncointerWorker.Stf.Keys
import EncointerWorker.Lib.Keystream
import EncointerWorker.Enclave.Types
import EncointerWorker.Enclave.StateFile
import EncointerWorker.Enclave.Responses
import EncointerWorker.Enclave.Sync
import EncointerWorker.Enclave.Frame
import EncointerWorker.Enclave.Trust
import EncointerWorker.Enclave.Ledger
import EncointerWorker.Enclave.Persist
import EncointerWorker.Enclave.Calls
import EncointerWorker.Enclave.Cert
import EncointerWorker.Enclave.TlsRa
import EncointerWorker.Enclave.PercentDecode
import EncointerWorker.Worker.Sync
import EncointerWorker.Enclave.Phase
import EncointerWorker.Enclave.Guards
import EncointerWorker.Enclave.CertGen
import EncointerWorker.Enclave.Hex
import EncointerWorker.Enclave.Disk
import EncointerWorker.Enclave.SealedRelay
import EncointerWorker.Enclave.HonestSync
import EncointerWorker.Enclave.Query
import EncointerWorker.Worker.Feed
import EncointerWorker.Worker.System
