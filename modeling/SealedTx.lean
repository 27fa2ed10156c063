import SealedTx.Config.Writer
import SealedTx.PrivacyGroup
import SealedTx.Main
import SealedTx.Text.Json
import SealedTx.Proofs.Fields.Script
import SealedTx.Proofs.Codec.Detect
import SealedTx.Proofs.Enclave.Delivery
import SealedTx.Proofs.PrivacyGroup.Identity
import SealedTx.Proofs.Enclave.Addressing
import SealedTx.Proofs.Enclave.Affected
import SealedTx.Proofs.Enclave.Disclosure
import SealedTx.Proofs.Enclave.Run
import SealedTx.Proofs.Enclave.Freshness
import SealedTx.Proofs.Payload.Promises
import SealedTx.Proofs.Codec.Grammar
import SealedTx.Proofs.Codec.Truncation
import SealedTx.Proofs.Codec.Routing
import SealedTx.Proofs.Payload.Relay
import SealedTx.Proofs.PrivacyGroup.Agreement
import SealedTx.Proofs.PrivacyGroup.Stored
import SealedTx.Proofs.Enclave.SenderCopy
import SealedTx.Proofs.Codec.Flag
import SealedTx.Proofs.Codec.ByName
import SealedTx.Proofs.Payload.Stripping
import SealedTx.Proofs.Enclave.Roles
import SealedTx.Proofs.Enclave.Faults
import SealedTx.Proofs.Codec.Schema
import SealedTx.Proofs.Codec.Version
import SealedTx.Proofs.Config.Startup
import SealedTx.Proofs.Config.Reasons
