import SealedTx.Key

/-!
# Errors

Three layers of causes. A `ValueError` is a fault of a plain value, an `EnclaveError` one of a
payload, a key or a cipher, and a `NodeError` one of a configuration or of a key vault. A layer
takes the errors of the layer below it in as they are: their wording stays the same.

The causes carry what a caller branches on; `message` is the one place that words them.
-/

namespace SealedTx

/-! ## Plain values -/

/-- A fault of a plain value. -/
inductive ValueError where
  | invalidInput (field reason : String)
  | invalidLength (expected actual : Nat)
  | alreadyExists (kind id : String)
  | encoding (context : String)
  | decoding (context details : String)
deriving DecidableEq, Repr

/-- The wording of a fault of a plain value. -/
def ValueError.message : ValueError → String
  | .invalidInput field reason => s!"Invalid input for '{field}': {reason}"
  | .invalidLength expected actual => s!"Invalid length: expected {expected}, got {actual}"
  | .alreadyExists kind id => s!"Resource already exists: {kind} with id '{id}'"
  | .encoding context => s!"Encoding error: {context}"
  | .decoding context details => s!"Decoding error: {context}: {details}"

/-- The fault of a text that is not Base64. -/
def ValueError.ofBase64 (e : Text.Base64.Error) : ValueError :=
  .decoding "base64 decode" e.message

/-- The bytes of a Base64 text. -/
def decodeBase64 (text : String) : Except ValueError Bytes :=
  (Text.Base64.decode text).mapError .ofBase64

/-- Takes a byte string as a key. -/
def Key.ofBytes {role : KeyRole} (b : Bytes) : Except ValueError (Key role) :=
  if h : b.length = keySize then .ok ⟨b, h⟩ else .error (.invalidLength keySize b.length)

/-- Reads a key from its Base64 text. -/
def Key.ofBase64 {role : KeyRole} (text : String) : Except ValueError (Key role) := do
  Key.ofBytes (← decodeBase64 text)

/-- Reads a byte value from its Base64 text. -/
def Blob.ofBase64 {role : BlobRole} (text : String) : Except ValueError (Blob role) :=
  (decodeBase64 text).map Blob.mk

/-! ## Payloads, keys and ciphers -/

/-- A fault of a payload, a key or a cipher. -/
inductive EnclaveError where
  | keyNotFound (key : PublicKey)
  | invalidRecipient (key : PublicKey)
  | missingRecipientData (reason : String)
  | malformedPayload (reason : String)
  | openFailure (context : String)
  | encryption (context : String)
  | keyExchange (reason : String)
  | invalidKeyLength (expected actual : Nat)
  | invalidNonceLength (expected actual : Nat)
  | unavailable (reason : String)
  | value (e : ValueError)
deriving DecidableEq

namespace EnclaveError

/-- The wording of an enclave's error. -/
def message : EnclaveError → String
  | keyNotFound key => s!"No private key found for public key {key.toBase64}"
  | invalidRecipient key => s!"Recipient {key.toBase64} is not a recipient of this transaction"
  | missingRecipientData reason => s!"Missing recipient data: {reason}"
  | malformedPayload reason => s!"Malformed payload: {reason}"
  | openFailure context => s!"Unable to open sealed data: {context}"
  | encryption context => s!"Encryption failed: {context}"
  | keyExchange reason => s!"Key exchange failed: {reason}"
  | invalidKeyLength expected actual => s!"Invalid key length: expected {expected}, got {actual}"
  | invalidNonceLength expected actual =>
    s!"Invalid nonce length: expected {expected}, got {actual}"
  | unavailable reason => s!"Enclave unavailable: {reason}"
  | value e => e.message

/-- Whether a cipher or a key agreement failed. -/
def isCrypto : EnclaveError → Bool
  | openFailure _ | encryption _ | keyExchange _ => true
  | invalidKeyLength _ _ | invalidNonceLength _ _ => true
  | _ => false

/-- Whether the payload is at fault. -/
def isPayload : EnclaveError → Bool
  | malformedPayload _ => true
  | _ => false

/-- Whether a key or a recipient is not there. -/
def isKey : EnclaveError → Bool
  | keyNotFound _ | invalidRecipient _ | missingRecipientData _ => true
  | _ => false

/-- Whether the same request may succeed later. -/
def isRetryable : EnclaveError → Bool
  | unavailable _ => true
  | _ => false

end EnclaveError

/-! ## Configuration and vaults -/

/-- A fault of a node: its configuration, a key vault, or its enclave. -/
inductive NodeError where
  | configLoad (path reason : String)
  | configInvalid (field reason : String)
  | keyVault (vault secret reason : String)
  | enclave (e : EnclaveError)
deriving DecidableEq

namespace NodeError

/-- The wording of a node's error. -/
def message : NodeError → String
  | configLoad path reason => s!"Failed to load configuration from '{path}': {reason}"
  | configInvalid field reason => s!"Invalid configuration: {field} - {reason}"
  | keyVault vault secret reason => s!"Key vault '{vault}' failed for secret '{secret}': {reason}"
  | enclave e => e.message

/-- Whether the configuration is at fault. -/
def isConfig : NodeError → Bool
  | configLoad _ _ | configInvalid _ _ => true
  | _ => false

/-- Whether the same request may succeed later. -/
def isRetryable : NodeError → Bool
  | keyVault _ _ _ => true
  | enclave e => e.isRetryable
  | _ => false

end NodeError

end SealedTx
