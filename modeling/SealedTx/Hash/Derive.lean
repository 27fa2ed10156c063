import SealedTx.Hash.Sha2

/-!
# Keyed hashes and key derivation

A keyed hash over SHA-256, and the derivation of keys from a secret that is not uniform: the
secret is extracted into a uniform key under a salt, which is then expanded to any length under
a label.
-/

namespace SealedTx.Derive

/-- The bytes in a block of the hash. -/
def blockSize : Nat := 64

/-- A key brought to the size of a block. -/
def blockKey (key : Bytes) : Bytes :=
  let k := if blockSize < key.length then sha256 key else key
  k ++ List.replicate (blockSize - k.length) 0

/-- The keyed hash of a message. -/
def hmac (key message : Bytes) : Bytes :=
  let k := blockKey key
  sha256 (k.map (· ^^^ 0x5c) ++ sha256 (k.map (· ^^^ 0x36) ++ message))

/-- The uniform key of a secret, under a salt. -/
def extract (salt secret : Bytes) : Bytes := hmac salt secret

/-- `n` blocks of key material, each hashed over the one before it, from block number `i` on. -/
def expandBlocks (key label : Bytes) : (n i : Nat) → (previous : Bytes) → Bytes
  | 0, _, _ => []
  | n + 1, i, previous =>
    let block := hmac key (previous ++ label ++ [UInt8.ofNat i])
    block ++ expandBlocks key label n (i + 1) block

/-- `size` bytes of key material under a label. -/
def expand (key label : Bytes) (size : Nat) : Bytes :=
  (expandBlocks key label ((size + 31) / 32) 1 []).take size

end SealedTx.Derive
