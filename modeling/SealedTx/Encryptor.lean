import SealedTx.Cipher.Aead
import SealedTx.Cipher.X25519
import SealedTx.Hash.Derive
import SealedTx.Error

/-!
# Encryptors

What an enclave asks of a cipher: a key that two owners share, and bytes sealed and opened under
a key and a nonce. An enclave is written for any encryptor; `Encryptor.standard` is the one that
nodes use.
-/

namespace SealedTx

/-- A key agreement and a cipher. -/
structure Encryptor where
  /-- The key that the owner of a private key shares with that of a public one. -/
  sharedKey : PublicKey → PrivateKey → Except EnclaveError SymmetricKey
  /-- The sealed form of bytes. -/
  sealBytes : Bytes → Nonce → SymmetricKey → Except EnclaveError Bytes
  /-- The bytes in sealed form. -/
  openBytes : Bytes → Nonce → SymmetricKey → Except EnclaveError Bytes

/-- Takes the contents of a box as a symmetric key. -/
def symmetricKey (b : Bytes) : Except EnclaveError SymmetricKey :=
  if h : b.length = keySize then .ok ⟨b, h⟩ else .error (.invalidKeyLength keySize b.length)

namespace Encryptor

/-- The salt under which shared keys are derived. -/
def derivationSalt : Bytes := Bytes.ofText "tessera-box-v1"

/-- The label under which shared keys are derived. -/
def derivationLabel : Bytes := Bytes.ofText "tessera-shared-key"

/-- The shared key of a secret that two owners agreed on. -/
def derive (secret : Bytes) : Except EnclaveError SymmetricKey :=
  symmetricKey (Derive.expand (Derive.extract derivationSalt secret) derivationLabel keySize)

/-- The nonce, if it has the length that the cipher takes. -/
def checkNonce (n : Nonce) : Except EnclaveError Unit :=
  if n.bytes.length = nonceSize then .ok ()
  else .error (.invalidNonceLength nonceSize n.bytes.length)

/-- Agrees on a secret and derives the shared key from it. A public key of low order, which
makes the same secret with every private key, is refused. -/
def agree (publicKey : PublicKey) (privateKey : PrivateKey) : Except EnclaveError SymmetricKey :=
  let secret := X25519.agree privateKey.bytes publicKey.bytes
  if secret.all (· = 0) then
    .error (.keyExchange s!"low-order public key {publicKey.toBase64}")
  else derive secret

/-- Seals bytes under a nonce of the right length. -/
def sealChecked (plain : Bytes) (n : Nonce) (k : SymmetricKey) : Except EnclaveError Bytes := do
  checkNonce n
  return Aead.sealBytes k.bytes n.bytes plain

/-- Opens sealed bytes under a nonce of the right length. -/
def openChecked (sealed : Bytes) (n : Nonce) (k : SymmetricKey) : Except EnclaveError Bytes := do
  checkNonce n
  if sealed.length < Aead.tagSize then
    throw (.openFailure "sealed data shorter than tag")
  match Aead.openBytes? k.bytes n.bytes sealed with
  | some plain => return plain
  | none => throw (.openFailure "authentication failed")

/-- The encryptor of nodes. -/
def standard : Encryptor where
  sharedKey := agree
  sealBytes := sealChecked
  openBytes := openChecked

end Encryptor

end SealedTx
