import SealedTx.Hash.Keccak
import SealedTx.Hash.Sha2
import SealedTx.Payload

/-!
# Transaction hashes

A transaction is named by a hash of its sealed message, by one of two algorithms.
-/

namespace SealedTx

/-- How a transaction hash is made. -/
inductive Digest where
  | sha3_512
  | sha512_256
deriving DecidableEq, Repr

namespace Digest

/-- All algorithms, the one that is used unless another is asked for first. -/
def all : List Digest := [sha3_512, sha512_256]

/-- The name of an algorithm. -/
def name : Digest → String
  | sha3_512 => "sha3-512"
  | sha512_256 => "sha512-256"

/-- The algorithm of exactly a name. -/
def ofName? (s : String) : Option Digest := all.find? fun d => d.name == s

/-- Reads the name of an algorithm, whatever its case; its dash may be an underscore. -/
def parse (text : String) : Except EnclaveError Digest :=
  let lowered := Text.lowerAscii text
  if lowered = "sha3-512" ∨ lowered = "sha3_512" then .ok sha3_512
  else if lowered = "sha512-256" ∨ lowered = "sha512_256" then .ok sha512_256
  else .error (.value (.invalidInput "digest" s!"unknown digest algorithm '{lowered}'"))

/-- The hash of a byte string. -/
def hash : Digest → Bytes → Bytes
  | sha3_512, b => SealedTx.sha3_512 b
  | sha512_256, b => SealedTx.sha512_256 b

end Digest

/-- The hash that names a transaction. -/
def Payload.transactionHash (p : Payload) (d : Digest) : TxHash := ⟨d.hash p.cipherText⟩

end SealedTx
