import SealedTx.Enclave.Encrypt

/-!
# Decrypting and verifying

A payload is read back by its sender, or by a recipient who names the key to use. The hashes that
bind a payload to the transactions it affects are checked against those transactions.
-/

namespace SealedTx.Enclave

/-- The message of a payload. The sender needs no key named; a recipient does. -/
def decrypt (x : Enclave) (p : Payload) (localKey : Option PublicKey) :
    Except EnclaveError Bytes := do
  let box :: _ := p.boxes
    | throw (.missingRecipientData "payload has no recipient box")
  let key ←
    if x.keys.isManaged p.sender then x.openAsSender p box
    else
      match localKey with
      | some k => x.openAsRecipient p box k
      | none => throw (.missingRecipientData "a local recipient key is required")
  x.encryptor.openBytes p.cipherText p.nonce key

/-- The message of a staged transaction. -/
def decryptRaw (x : Enclave) (raw : RawTransaction) : Except EnclaveError Bytes := do
  x.encryptor.openBytes raw.cipherText raw.nonce (← x.rawMasterKey raw)

/-- Whether the hash that a payload declares for an affected transaction is not the one that the
transaction supplied for it has, or none is supplied. -/
def isInvalidHash (x : Enclave) (p : Payload) (supplied : SortedMap TxHash Payload)
    (declared : TxHash × SecurityHash) : Except EnclaveError Bool :=
  match supplied.get? declared.1 with
  | none => return true
  | some affected => return (← x.securityHash p.cipherText affected) ≠ declared.2

/-- The affected transactions of a payload whose declared hashes are not theirs, in order. -/
def invalidHashes (x : Enclave) (p : Payload) (supplied : SortedMap TxHash Payload) :
    Except EnclaveError (List TxHash) := do
  let invalid ← p.affected.entries.filterM (x.isInvalidHash p supplied)
  return invalid.map (·.1)

end SealedTx.Enclave
