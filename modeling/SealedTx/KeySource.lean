import SealedTx.Text.Quoted
import SealedTx.Vault

/-!
# Where keys come from

A configuration names a source for every key pair: the keys themselves, or two secrets of a
vault. A source is checked before anything starts, and converted to a pair when an enclave is
made. Both find the first fault in the same order, the public key before the private one.
-/

namespace SealedTx

/-- Where a key pair comes from. -/
inductive KeySource where
  /-- The Base64 texts of the keys. -/
  | inline (publicKey privateKey : String)
  /-- Two secrets, each in a version if one is given. -/
  | azure (publicId privateId : String) (publicVersion privateVersion : Option String)
  /-- Two fields of one secret, in a version if one is given. -/
  | hashicorp (engine secret publicId privateId : String) (version : Option UInt32)
  /-- Two secrets. -/
  | aws (publicId privateId : String)
deriving DecidableEq

namespace KeySource

/-- The kind of vault that a source needs. -/
def vaultKind? : KeySource → Option VaultKind
  | inline _ _ => none
  | azure _ _ _ _ => some .azure
  | hashicorp _ _ _ _ _ => some .hashicorp
  | aws _ _ => some .aws

/-- Diagnostics show what a source is, and of keys only the public one. -/
def debug : KeySource → String
  | inline publicKey _ =>
    "Inline \x7b public_key: " ++ Text.quote publicKey ++
      ", private_key: " ++ Text.quote "[REDACTED]" ++ " \x7d"
  | azure publicId _ _ _ => "Azure \x7b public_key_id: " ++ Text.quote publicId ++ ", .. \x7d"
  | hashicorp _ secret _ _ _ => "Hashicorp \x7b secret_name: " ++ Text.quote secret ++ ", .. \x7d"
  | aws publicId _ => "Aws \x7b public_key_id: " ++ Text.quote publicId ++ ", .. \x7d"

/-! ## Checking -/

/-- The key whose Base64 text is written in a field. -/
def writtenKey {role : KeyRole} (field text : String) : Except NodeError (Key role) :=
  (Key.ofBase64 text).mapError fun e => .configInvalid field e.message

/-- Refuses a field that holds nothing but blanks. -/
def requireText (field text : String) : Except NodeError Unit :=
  if Text.trim text = "" then .error (.configInvalid field "cannot be empty") else .ok ()

/-- The key pair whose Base64 texts are written below a field. -/
def writtenPair (field publicKey privateKey : String) : Except NodeError KeyPair := do
  return ⟨← writtenKey s!"{field}.public_key" publicKey,
    ← writtenKey s!"{field}.private_key" privateKey⟩

/-- Checks what can be told of a source, which stands in a field, without asking a vault. -/
def check (field : String) : KeySource → Except NodeError Unit
  | inline publicKey privateKey => do
    let _ ← writtenPair field publicKey privateKey
  | azure publicId privateId _ _ | aws publicId privateId => do
    requireText s!"{field}.public_key_id" publicId
    requireText s!"{field}.private_key_id" privateId
  | hashicorp engine secret publicId privateId _ => do
    requireText s!"{field}.secret_engine_name" engine
    requireText s!"{field}.secret_name" secret
    requireText s!"{field}.public_key_id" publicId
    requireText s!"{field}.private_key_id" privateId

/-! ## Converting -/

/-- The key that a vault keeps as a secret. -/
def fetchedKey {role : KeyRole} (v : Vault) (r : SecretRequest) : Except NodeError (Key role) := do
  let secret ← v.fetch r
  (Key.ofBase64 secret).mapError fun e =>
    .keyVault r.kind.name r.label s!"secret is not a valid key: {e.message}"

/-- The key pair of two secrets in the first vault of the kind that they are for. -/
def fetchedPair (vaults : List Vault) (field : String)
    (publicRequest privateRequest : SecretRequest) : Except NodeError KeyPair :=
  let kind := publicRequest.kind
  match firstOfKind? vaults kind with
  | none => .error (.configInvalid field s!"no {kind.name} key vault is configured")
  | some v => do return ⟨← fetchedKey v publicRequest, ← fetchedKey v privateRequest⟩

/-- The key pair of a source that stands in a field. -/
def toPair (vaults : List Vault) (field : String) : KeySource → Except NodeError KeyPair
  | inline publicKey privateKey => writtenPair field publicKey privateKey
  | azure publicId privateId publicVersion privateVersion =>
    fetchedPair vaults field (.azure publicId publicVersion) (.azure privateId privateVersion)
  | hashicorp engine secret publicId privateId version =>
    fetchedPair vaults field (.hashicorp engine secret publicId version)
      (.hashicorp engine secret privateId version)
  | aws publicId privateId => fetchedPair vaults field (.aws publicId) (.aws privateId)

end KeySource

end SealedTx
