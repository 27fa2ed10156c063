import SealedTx.Digest
import SealedTx.Encryptor
import SealedTx.Enclave.KeyTable
import SealedTx.Enclave.Metadata

/-!
# Enclaves

An enclave keeps key pairs and works with them for its node. It opens boxes with a key of its
own and the public key of the other side: as the sender with the first recipient's key, else as a
recipient with the sender's.

What an enclave draws at random is given from outside, as draw number zero, one and so on, and a
ledger keeps how far it got. The ledger also keeps every seal that was made, with its key and its
nonce, so that what a run of operations sealed can be spoken of; it is kept when an operation
fails midway.
-/

namespace SealedTx

/-! ## Random draws and the ledger -/

/-- What draw number `n` yields, as a master key or as a nonce. -/
structure Draws where
  masterKey : (n : Nat) → SymmetricKey
  nonce : (n : Nat) → Nonce

/-- Draw number `n` of `size` bytes that count up from a seed. -/
def countingBytes (seed size n : Nat) : Bytes :=
  (List.range size).map fun i => UInt8.ofNat (seed + 37 * n + 11 * i)

/-- Draws that count up from a seed, for runs that have to come out the same again. -/
def Draws.counting (seed : Nat) : Draws where
  masterKey n := ⟨countingBytes seed keySize n, by simp [countingBytes]⟩
  nonce n := ⟨countingBytes seed nonceSize n⟩

/-- Bytes that were sealed, under a nonce and a key. -/
structure SealCall where
  plain : Bytes
  nonce : Nonce
  key : SymmetricKey
deriving DecidableEq

/-- What an enclave has drawn and sealed so far, the last seal first. -/
structure Ledger where
  drawn : Nat := 0
  calls : List SealCall := []

/-- A step that may draw and seal, and may fail. -/
abbrev Action := EStateM EnclaveError Ledger

/-- A step that neither draws nor seals. -/
def Action.ofExcept {α : Type} : Except EnclaveError α → Action α
  | .ok a => return a
  | .error e => throw e

/-! ## The enclave -/

/-- Whether an enclave serves requests. -/
inductive Status where
  | started
  | stopped
deriving DecidableEq, Repr

/-- The word for a status. -/
def Status.name : Status → String
  | started => "STARTED"
  | stopped => "STOPPED"

/-- A cipher, the keys to use it with, and what to draw. -/
structure Enclave where
  encryptor : Encryptor
  keys : KeyTable
  draws : Draws

namespace Enclave

/-- Diagnostics show the default key of an enclave. -/
def debug (x : Enclave) : String :=
  "EnclaveImpl \x7b default_key: " ++ x.keys.defaultKey.debug ++ ", .. \x7d"

/-- An enclave that holds its keys serves requests. -/
def status (_ : Enclave) : Status := .started

/-! ## Drawing and sealing -/

/-- Draws a master key. -/
def drawMasterKey (x : Enclave) : Action SymmetricKey := do
  let l ← get
  set { l with drawn := l.drawn + 1 }
  return x.draws.masterKey l.drawn

/-- Draws a nonce. -/
def drawNonce (x : Enclave) : Action Nonce := do
  let l ← get
  set { l with drawn := l.drawn + 1 }
  return x.draws.nonce l.drawn

/-- Seals bytes, and keeps that it did. -/
def sealBytes (x : Enclave) (plain : Bytes) (n : Nonce) (k : SymmetricKey) : Action Bytes := do
  modify fun l => { l with calls := ⟨plain, n, k⟩ :: l.calls }
  Action.ofExcept (x.encryptor.sealBytes plain n k)

/-- Seals a master key for one recipient. -/
def sealFor (x : Enclave) (masterKey : SymmetricKey) (sender : PrivateKey) (n : Nonce)
    (recipient : PublicKey) : Action RecipientBox := do
  let shared ← Action.ofExcept (x.encryptor.sharedKey recipient sender)
  return ⟨← x.sealBytes masterKey.bytes n shared⟩

/-- Seals a master key for every recipient, in order. -/
def sealForAll (x : Enclave) (masterKey : SymmetricKey) (sender : PublicKey) (n : Nonce)
    (recipients : List PublicKey) : Action (List RecipientBox) := do
  let privateKey ← Action.ofExcept (x.keys.privateKey sender)
  recipients.mapM (x.sealFor masterKey privateKey n)

/-! ## Opening -/

/-- Opens a sealed master key with the private key of an owner and the public key of the other
side. -/
def openMasterKey (x : Enclave) (sealed : Bytes) (n : Nonce) (other owner : PublicKey) :
    Except EnclaveError SymmetricKey := do
  let privateKey ← x.keys.privateKey owner
  let shared ← x.encryptor.sharedKey other privateKey
  symmetricKey (← x.encryptor.openBytes sealed n shared)

/-- Opens the first box of a payload that the enclave sent itself. -/
def openAsSender (x : Enclave) (p : Payload) (box : RecipientBox) :
    Except EnclaveError SymmetricKey :=
  match p.recipients with
  | [] => .error (.missingRecipientData "locally sent payload has no recipient key")
  | r :: _ => x.openMasterKey box.bytes p.recipientNonce r p.sender

/-- Opens a box of a payload as one of its recipients. -/
def openAsRecipient (x : Enclave) (p : Payload) (box : RecipientBox) (owner : PublicKey) :
    Except EnclaveError SymmetricKey :=
  x.openMasterKey box.bytes p.recipientNonce p.sender owner

/-- The master key of a payload: opened as the sender, or with the first key that opens it. -/
def masterKey (x : Enclave) (p : Payload) : Except EnclaveError SymmetricKey :=
  match p.boxes with
  | [] =>
    .error (.malformedPayload "an encoded payload should have at least one recipient box")
  | box :: _ =>
    if x.keys.isManaged p.sender then x.openAsSender p box
    else
      match x.keys.publicKeys.findSome? fun k => (x.openAsRecipient p box k).toOption with
      | some key => .ok key
      | none => .error (.openFailure "unable to decrypt master key")

/-! ## Security hashes -/

/-- What a security hash is made of: the sealed message, that of the affected transaction, and
the affected transaction's master key. -/
def securityInput (cipherText affectedText : Bytes) (affectedKey : SymmetricKey) : Bytes :=
  cipherText ++ affectedText ++ affectedKey.bytes

/-- The hash that binds a sealed message to a transaction that it affects. -/
def securityHash (x : Enclave) (cipherText : Bytes) (affected : Payload) :
    Except EnclaveError SecurityHash := do
  return ⟨sha3_512 (securityInput cipherText affected.cipherText (← x.masterKey affected))⟩

/-- The hashes for affected transactions, in the order of their own hashes. -/
def securityHashes (x : Enclave) (cipherText : Bytes) (affected : List (TxHash × Payload)) :
    Except EnclaveError (List (TxHash × SecurityHash)) :=
  affected.mapM fun e => return (e.1, ← x.securityHash cipherText e.2)

end Enclave

end SealedTx
