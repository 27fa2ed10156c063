import SealedTx.Enclave

/-!
# Encrypting

A message is sealed under a fresh master key and nonce, and the master key is sealed for each
recipient under a second nonce. A message can also be staged: sealed first, with its master key
sealed by the sender for itself, and addressed later. A recipient who joins later gets a box
under the nonce of the other boxes.
-/

namespace SealedTx.Enclave

/-- The payload of a sealed message with its boxes, and with what the metadata asks for. -/
def assemble (x : Enclave) (sender : PublicKey) (cipherText : Bytes) (nonce : Nonce)
    (boxes : List RecipientBox) (recipientNonce : Nonce) (recipients : List PublicKey)
    (md : Metadata) : Except EnclaveError Payload := do
  let hashes ← x.securityHashes cipherText md.affected.entries
  Draft.build {
    sender := some sender, cipherText, nonce, boxes, recipientNonce, recipients
    mode := md.mode, affected := .ofList hashes, execHash := md.execHash
    mandatory := md.mandatory, groupId := md.groupId }

/-- Encrypts a message for its recipients. -/
def encrypt (x : Enclave) (message : Bytes) (sender : PublicKey) (recipients : List PublicKey)
    (md : Metadata) : Action Payload := do
  let key ← x.drawMasterKey
  let nonce ← x.drawNonce
  let recipientNonce ← x.drawNonce
  let cipherText ← x.sealBytes message nonce key
  let boxes ← x.sealForAll key sender recipientNonce recipients
  Action.ofExcept (x.assemble sender cipherText nonce boxes recipientNonce recipients md)

/-- Seals a message that is to be addressed later. -/
def encryptRaw (x : Enclave) (message : Bytes) (sender : PublicKey) :
    Action RawTransaction := do
  let privateKey ← Action.ofExcept (x.keys.privateKey sender)
  let key ← x.drawMasterKey
  let nonce ← x.drawNonce
  let cipherText ← x.sealBytes message nonce key
  let shared ← Action.ofExcept (x.encryptor.sharedKey sender privateKey)
  let sealedKey ← x.sealBytes key.bytes nonce shared
  return { cipherText, sealedKey, nonce, sender }

/-- The master key of a staged message. -/
def rawMasterKey (x : Enclave) (raw : RawTransaction) : Except EnclaveError SymmetricKey :=
  x.openMasterKey raw.sealedKey raw.nonce raw.sender raw.sender

/-- Addresses a staged message. -/
def encryptFromRaw (x : Enclave) (raw : RawTransaction) (recipients : List PublicKey)
    (md : Metadata) : Action Payload := do
  let key ← Action.ofExcept (x.rawMasterKey raw)
  let recipientNonce ← x.drawNonce
  let boxes ← x.sealForAll key raw.sender recipientNonce recipients
  Action.ofExcept
    (x.assemble raw.sender raw.cipherText raw.nonce boxes recipientNonce recipients md)

/-- Seals the master key of a payload for one more recipient. -/
def newBox (x : Enclave) (p : Payload) (recipient : PublicKey) : Action RecipientBox :=
  match p.recipients, p.boxes with
  | first :: _, box :: _ => do
    let key ← Action.ofExcept (x.openMasterKey box.bytes p.recipientNonce first p.sender)
    let privateKey ← Action.ofExcept (x.keys.privateKey p.sender)
    x.sealFor key privateKey p.recipientNonce recipient
  | _, _ => throw (.missingRecipientData "No key or recipient-box to use")

end SealedTx.Enclave
