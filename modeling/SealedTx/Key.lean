import SealedTx.Text.Base64

/-!
# Keys and byte values

Every key is a string of 32 bytes and every other value that a payload names is a byte string of
any length. Both come in roles, so that a public key is never taken for a private one, nor a
nonce for a hash. The bytes of a value are its identity and its order.
-/

namespace SealedTx

/-- The number of bytes in a key. -/
def keySize : Nat := 32

/-- The number of bytes in a nonce that the cipher accepts. -/
def nonceSize : Nat := 24

/-! ## Keys -/

/-- What a key is for. -/
inductive KeyRole where
  /-- The half of a static pair that names its owner. -/
  | publicHalf
  /-- The half of a static pair that its owner keeps. -/
  | privateHalf
  /-- A key that both seals and opens: a master key, or one shared by two owners. -/
  | symmetric
deriving DecidableEq

/-- A key of 32 bytes. -/
structure Key (role : KeyRole) where
  bytes : Bytes
  length_eq : bytes.length = keySize
deriving DecidableEq

/-- The key that names an owner. -/
abbrev PublicKey := Key .publicHalf

/-- The key that an owner keeps. -/
abbrev PrivateKey := Key .privateHalf

/-- A key that seals and opens. -/
abbrev SymmetricKey := Key .symmetric

/-- The Base64 text of a key. -/
def Key.toBase64 {role : KeyRole} (k : Key role) : String := Text.Base64.encode k.bytes

/-- A static key pair. -/
structure KeyPair where
  publicKey : PublicKey
  privateKey : PrivateKey
deriving DecidableEq

/-- Diagnostics show a public key in Base64. -/
def Key.debug (k : PublicKey) : String := s!"PublicKey({k.toBase64})"

/-- Diagnostics show of a key that is kept only what it is called. -/
def redacted (name : String) : String := s!"{name}([REDACTED])"

/-- Diagnostics show of a pair only its public half. -/
def KeyPair.debug (p : KeyPair) : String :=
  "KeyPair \x7b public: " ++ p.publicKey.debug ++ ", .. \x7d"

/-! ## Byte values -/

/-- What a byte value is. -/
inductive BlobRole where
  /-- A value that the cipher uses once under a key. -/
  | nonce
  /-- The hash that names a transaction. -/
  | txHash
  /-- The hash that binds a transaction to one that it affects. -/
  | securityHash
  /-- A master key sealed for one recipient. -/
  | recipientBox
  /-- The hash that names a privacy group. -/
  | groupId
deriving DecidableEq

/-- The name that diagnostics give to a value of the role. -/
def BlobRole.name : BlobRole → String
  | nonce => "Nonce"
  | txHash => "TxHash"
  | securityHash => "SecurityHash"
  | recipientBox => "RecipientBox"
  | groupId => "PrivacyGroupId"

/-- A byte string with a role. -/
structure Blob (role : BlobRole) where
  bytes : Bytes
deriving DecidableEq

abbrev Nonce := Blob .nonce
abbrev TxHash := Blob .txHash
abbrev SecurityHash := Blob .securityHash
abbrev RecipientBox := Blob .recipientBox
abbrev GroupId := Blob .groupId

/-- The Base64 text of a byte value. -/
def Blob.toBase64 {role : BlobRole} (b : Blob role) : String := Text.Base64.encode b.bytes

/-- Diagnostics show a byte value's role and its Base64 text. -/
def Blob.debug {role : BlobRole} (b : Blob role) : String := s!"{role.name}({b.toBase64})"

/-! ## Identity and order by bytes -/

/-- The types whose values are told apart, and ordered, by their bytes. -/
class ByteKeyed (α : Type) where
  /-- The bytes of a value. -/
  key : α → Bytes
  /-- Two values with the same bytes are one. -/
  key_injective : ∀ {a b : α}, key a = key b → a = b

instance {role : KeyRole} : ByteKeyed (Key role) where
  key := Key.bytes
  key_injective := by
    intro ⟨a, ha⟩ ⟨b, hb⟩ h
    subst h
    rfl

instance {role : BlobRole} : ByteKeyed (Blob role) where
  key := Blob.bytes
  key_injective := by
    intro ⟨a⟩ ⟨b⟩ h
    subst h
    rfl

end SealedTx
