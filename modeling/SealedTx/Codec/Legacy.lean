import SealedTx.Fields
import SealedTx.Payload

/-!
# The field format of payloads

The older of the two wire formats is a sequence of fields without names. It grew at its end, so a
payload may stop after its recipient nonce or after its recipients: what is missing then has its
default. Behind the affected transactions stand an execution hash if the mode validates state,
the mandatory recipients if the mode has them, and a group id if there is one. Nothing marks these
three, so reading goes by the mode and by whether bytes are left, and ignores what comes after.
-/

namespace SealedTx.Codec.Legacy

open Fields

/-! ## Writing -/

/-- The affected transactions: their number, then a hash and a security hash for each. -/
def affectedFields (m : SortedMap TxHash SecurityHash) : Bytes :=
  count m.size ++ m.entries.flatMap fun e => field e.1.bytes ++ field e.2.bytes

/-- The group id at the end, if there is one. -/
def groupIdField : Option GroupId → Bytes
  | some g => field g.bytes
  | none => []

/-- The bytes of a payload. -/
def encode (p : Payload) : Bytes :=
  field p.sender.bytes ++ field p.cipherText ++ field p.nonce.bytes ++
    array (p.boxes.map Blob.bytes) ++ field p.recipientNonce.bytes ++
    array (p.recipients.map Key.bytes) ++ field [p.mode.flag] ++ affectedFields p.affected ++
    (if p.execHash = [] then [] else field p.execHash) ++
    (if p.mode = .mandatoryRecipients then array (p.mandatory.toList.map Key.bytes) else []) ++
    groupIdField p.groupId

/-! ## Reading -/

/-- Takes bytes as a key, which the error calls `what`. -/
def readKey (what : String) (b : Bytes) : Reader PublicKey :=
  match Key.ofBytes b with
  | .ok k => return k
  | .error e => throw (.malformedPayload s!"invalid {what}: {e.message}")

/-- Reads the parts that every payload has. -/
def readHead : Reader Draft := do
  let sender ← readKey "sender key" (← readField "sender key")
  let cipherText ← readField "cipher text"
  let nonce ← readField "cipher text nonce"
  let boxes ← readArray "recipient boxes"
  let recipientNonce ← readField "recipient nonce"
  return { sender := some sender, cipherText, nonce := ⟨nonce⟩, boxes := boxes.map Blob.mk,
           recipientNonce := ⟨recipientNonce⟩ }

/-- Reads `n` affected transactions. -/
def readAffected : (n : Nat) → Reader (List (TxHash × SecurityHash))
  | 0 => return []
  | n + 1 => do
    let tx ← readField "affected transaction hash"
    let hash ← readField "security hash"
    return (⟨tx⟩, ⟨hash⟩) :: (← readAffected n)

/-- Reads a value if bytes are left. -/
def ifMore {α : Type} (otherwise : α) (r : Reader α) : Reader α := do
  if ← hasMore then r else return otherwise

/-- Reads the execution hash of a mode that validates state. -/
def readExecHash (mode : PrivacyMode) : Reader Bytes :=
  if mode = .privateStateValidation then ifMore [] (readField "exec hash") else return []

/-- Reads the mandatory recipients of a mode that has them. -/
def readMandatory (mode : PrivacyMode) : Reader (List PublicKey) :=
  if mode = .mandatoryRecipients then
    ifMore [] do (← readArray "mandatory recipients").mapM (readKey "mandatory recipient")
  else return []

/-- Reads the group id. -/
def readGroupId : Reader (Option GroupId) :=
  ifMore none do return some ⟨← readField "privacy group id"⟩

/-- Reads the mode and all that stands behind it. -/
def readPrivacy (d : Draft) : Reader Draft := do
  let flag ← readField "privacy flag"
  let mode := PrivacyMode.ofFlag (flag.headD 0)
  let affected ← readAffected (← readCount "affected transactions")
  let execHash ← readExecHash mode
  let mandatory ← readMandatory mode
  let groupId ← readGroupId
  return { d with mode, affected := .ofList affected, execHash,
                  mandatory := .ofList mandatory, groupId }

/-- Reads the parts of a payload, as far as there are bytes. -/
def readDraft : Reader Draft := do
  let d ← readHead
  if !(← hasMore) then
    return d
  let keys ← (← readArray "recipient keys").mapM (readKey "recipient key")
  let d := { d with recipients := keys }
  if !(← hasMore) then
    return d
  readPrivacy d

/-- The payload that a byte string holds. -/
def decode (b : Bytes) : Except EnclaveError Payload := do
  (← readDraft.eval b).build

end SealedTx.Codec.Legacy
