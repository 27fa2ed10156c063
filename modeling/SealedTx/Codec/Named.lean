import SealedTx.Cbor.Reader
import SealedTx.Cbor.Writer
import SealedTx.Payload

/-!
# The map format of payloads

The newer wire format is a CBOR map from names to the parts of a payload. Parts are read by name:
their order is free, of a repeated name the last entry counts, and entries with other names, or
with keys that are no text, are ignored. Only the first four names have to be there.

Affected transactions are a map whose keys are texts, so their hashes are written in Base64. A
group id is always written, empty when there is none.
-/

namespace SealedTx.Codec.Named

open Cbor (Value)

/-! ## Names -/

def senderName : String := "sender"
def cipherTextName : String := "cipherText"
def nonceName : String := "nonce"
def recipientNonceName : String := "recipientNonce"
def boxesName : String := "recipientBoxes"
def recipientsName : String := "recipients"
def flagName : String := "privacyFlag"
def affectedName : String := "affected"
def execHashName : String := "execHash"
def mandatoryName : String := "mandatoryFor"
def groupIdName : String := "privacyGroupId"

/-! ## Writing -/

/-- An array of byte strings. -/
def byteArray (items : List Bytes) : Value := .array (items.map .bytes)

/-- The map of affected transactions. -/
def affectedValue (m : SortedMap TxHash SecurityHash) : Value :=
  .map (m.entries.map fun e => (.text e.1.toBase64, .bytes e.2.bytes))

/-- The bytes of a group id, none when there is no id. -/
def groupIdBytes : Option GroupId → Bytes
  | some g => g.bytes
  | none => []

/-- The entries of the map of a payload. -/
def entriesOf (p : Payload) : List (Value × Value) := [
  (.text senderName, .bytes p.sender.bytes),
  (.text cipherTextName, .bytes p.cipherText),
  (.text nonceName, .bytes p.nonce.bytes),
  (.text recipientNonceName, .bytes p.recipientNonce.bytes),
  (.text boxesName, byteArray (p.boxes.map Blob.bytes)),
  (.text recipientsName, byteArray (p.recipients.map Key.bytes)),
  (.text flagName, .integer p.mode.flag.toNat),
  (.text affectedName, affectedValue p.affected),
  (.text execHashName, .bytes p.execHash),
  (.text mandatoryName, byteArray (p.mandatory.toList.map Key.bytes)),
  (.text groupIdName, .bytes (groupIdBytes p.groupId))]

/-- The map of a payload. -/
def toValue (p : Payload) : Value := .map (entriesOf p)

/-- The bytes of a payload. -/
def encode (p : Payload) : Bytes := (toValue p).encode

/-! ## Reading by name -/

/-- The value of the last entry whose key is a name. -/
def lastOf? (name : String) : List (Value × Value) → Option Value
  | [] => none
  | (.text s, v) :: rest => (lastOf? name rest).or (if s = name then some v else none)
  | _ :: rest => lastOf? name rest

/-- Takes a value as a byte string. -/
def expectBytes (name : String) : Value → Except EnclaveError Bytes
  | .bytes b => .ok b
  | v => .error (.malformedPayload s!"'{name}' must be a byte string, got {v.debug}")

/-- Takes a value as an array of byte strings. -/
def expectByteArray (name : String) : Value → Except EnclaveError (List Bytes)
  | .array items => items.mapM (expectBytes name)
  | _ => .error (.malformedPayload s!"'{name}' must be an array")

/-- Takes bytes as a key, which the error calls `what`. -/
def expectKey (what : String) (b : Bytes) : Except EnclaveError PublicKey :=
  (Key.ofBytes b).mapError fun e => .malformedPayload s!"invalid {what}: {e.message}"

/-- Takes a value as an array of keys. -/
def expectKeys (name : String) (v : Value) : Except EnclaveError (List PublicKey) := do
  (← expectByteArray name v).mapM (expectKey s!"key in '{name}'")

/-- Takes a value as the number of a mode. -/
def expectMode (name : String) : Value → Except EnclaveError PrivacyMode
  | .integer n => .ok (.ofInt n)
  | _ => .error (.malformedPayload s!"'{name}' must be an integer")

/-- Takes an entry as an affected transaction. -/
def expectAffectedEntry (name : String) :
    Value × Value → Except EnclaveError (TxHash × SecurityHash)
  | (.text s, v) => do
    let tx ← (Blob.ofBase64 s).mapError fun e =>
      .malformedPayload s!"affected transaction key: {e.message}"
    return (tx, ⟨← expectBytes name v⟩)
  | _ => .error (.malformedPayload "affected transaction key must be text")

/-- Takes a value as the map of affected transactions. -/
def expectAffected (name : String) :
    Value → Except EnclaveError (SortedMap TxHash SecurityHash)
  | .map entries => return .ofList (← entries.mapM (expectAffectedEntry name))
  | _ => .error (.malformedPayload s!"'{name}' must be a map")

/-- The byte string that has to be there under a name. -/
def requiredBytes (entries : List (Value × Value)) (name : String) : Except EnclaveError Bytes :=
  match lastOf? name entries with
  | some v => expectBytes name v
  | none => .error (.malformedPayload s!"missing '{name}'")

/-- What may be there under a name, with what it is when it is not there. -/
def optional {α : Type} (entries : List (Value × Value)) (name : String) (default : α)
    (expect : String → Value → Except EnclaveError α) : Except EnclaveError α :=
  match lastOf? name entries with
  | some v => expect name v
  | none => .ok default

/-- The draft that the entries of a map name. -/
def ofEntries (entries : List (Value × Value)) : Except EnclaveError Draft := do
  let sender ← expectKey "sender key" (← requiredBytes entries senderName)
  let cipherText ← requiredBytes entries cipherTextName
  let nonce ← requiredBytes entries nonceName
  let recipientNonce ← requiredBytes entries recipientNonceName
  let boxes ← optional entries boxesName [] expectByteArray
  let recipients ← optional entries recipientsName [] expectKeys
  let mode ← optional entries flagName .standardPrivate expectMode
  let affected ← optional entries affectedName .empty expectAffected
  let execHash ← optional entries execHashName [] expectBytes
  let mandatory ← optional entries mandatoryName [] expectKeys
  let groupId ← optional entries groupIdName [] expectBytes
  return { sender := some sender, cipherText, nonce := ⟨nonce⟩,
           recipientNonce := ⟨recipientNonce⟩, boxes := boxes.map Blob.mk, recipients, mode,
           affected, execHash, mandatory := .ofList mandatory, groupId := some ⟨groupId⟩ }

/-- The payload that a value holds. -/
def ofValue : Value → Except EnclaveError Payload
  | .map entries => do (← ofEntries entries).build
  | _ => .error (.malformedPayload "payload is not a CBOR map")

/-- The payload that a byte string holds; bytes behind the map do not matter. -/
def decode (b : Bytes) : Except EnclaveError Payload :=
  match Cbor.parse b with
  | .ok (v, _) => ofValue v
  | .error e => .error (.malformedPayload s!"invalid CBOR: {e.name}")

end SealedTx.Codec.Named
