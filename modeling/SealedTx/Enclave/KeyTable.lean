import SealedTx.Sorted
import SealedTx.Error

/-!
# Key tables

The key pairs that an enclave keeps. The first pair given is the default one; no public key may
come twice. Besides its own keys a table names the keys that get a copy of every transaction.
-/

namespace SealedTx

/-- The keys of an enclave. -/
structure KeyTable where
  /-- The key that sends unless another is asked for. -/
  defaultKey : PublicKey
  /-- The private key of each public key that is kept. -/
  pairs : SortedMap PublicKey PrivateKey
  /-- The keys that get a copy of every transaction. -/
  forwarding : SortedSet PublicKey

namespace KeyTable

/-- Adds pairs one after the other, up to the first whose public key is there already. -/
def addPairs : SortedMap PublicKey PrivateKey → List KeyPair →
    Except EnclaveError (SortedMap PublicKey PrivateKey)
  | m, [] => .ok m
  | m, p :: rest =>
    match m.get? p.publicKey with
    | some _ => .error (.value (.alreadyExists "key pair" p.publicKey.toBase64))
    | none => addPairs (m.insert p.publicKey p.privateKey) rest

/-- The table of a list of pairs. -/
def ofPairs (pairs : List KeyPair) (forwarding : List PublicKey) :
    Except EnclaveError KeyTable :=
  match pairs with
  | [] => .error (.value (.invalidInput "keys" "at least one key pair is required"))
  | first :: _ => do
    return { defaultKey := first.publicKey
             pairs := ← addPairs .empty pairs
             forwarding := .ofList forwarding }

/-- The public keys that are kept, in order. -/
def publicKeys (t : KeyTable) : List PublicKey := t.pairs.keys

/-- The number of pairs. -/
def size (t : KeyTable) : Nat := t.pairs.size

/-- Whether the table keeps the private key of a public one. -/
def isManaged (t : KeyTable) (k : PublicKey) : Bool := t.pairs.contains k

/-- The private key of a public one. -/
def privateKey (t : KeyTable) (k : PublicKey) : Except EnclaveError PrivateKey :=
  match t.pairs.get? k with
  | some p => .ok p
  | none => .error (.keyNotFound k)

/-- Whether a private key is found for a public one. A holder of keys that has no quicker way to
tell whether it keeps a key tells it so. -/
def hasPrivateKey (t : KeyTable) (k : PublicKey) : Bool := (t.privateKey k).isOk

/-- Diagnostics show the public keys of a table. -/
def debug (t : KeyTable) : String :=
  let list (ks : List PublicKey) := ", ".intercalate (ks.map Key.debug)
  "InMemoryKeyManager \x7b public_keys: [" ++ list t.publicKeys ++ "], default_key: " ++
    t.defaultKey.debug ++ ", forwarding_keys: \x7b" ++ list t.forwarding.toList ++ "\x7d \x7d"

end KeyTable

end SealedTx
