import SealedTx.Codec.Version
import SealedTx.Digest
import SealedTx.KeySource

/-!
# Configurations

What an operator sets for a node: where its key pairs come from, which keys get a copy of every
transaction, the wire format and the hash that it uses, and how much it logs. All but the key
pairs have defaults.

Checking a configuration names the first field at fault: the sources of keys in order, then the
forwarding keys in order, then the log level.
-/

namespace SealedTx

/-- The settings of a node. -/
structure Config where
  /-- Where the key pairs come from; the first one is the default. -/
  sources : List KeySource := []
  /-- The Base64 texts of the keys that get a copy of every transaction. -/
  forwarding : List String := []
  codec : Codec := .current
  digest : Digest := .sha3_512
  level : String := "info"

namespace Config

/-- The words for how much is logged. -/
def levels : List String := ["trace", "debug", "info", "warn", "error"]

/-- What the field of a source is called. -/
def sourceField (i : Nat) : String := s!"keys.key_data[{i}]"

/-- What the field of a forwarding key is called. -/
def forwardingField (i : Nat) : String := s!"keys.forwarding_keys[{i}]"

/-- The keys that get a copy of every transaction. -/
def forwardingKeys (c : Config) : Except NodeError (List PublicKey) :=
  c.forwarding.zipIdx.mapM fun e => KeySource.writtenKey (forwardingField e.2) e.1

/-- Checks all sources of keys. -/
def checkSources (c : Config) : Except NodeError Unit :=
  if c.sources = [] then
    .error (.configInvalid "keys.key_data" "at least one key pair is required")
  else
    c.sources.zipIdx.forM fun e => e.1.check (sourceField e.2)

/-- Checks the log level, whatever its case. -/
def checkLevel (c : Config) : Except NodeError Unit :=
  if Text.lowerAscii c.level ∈ levels then .ok ()
  else .error (.configInvalid "logging.level" ("must be one of " ++ ", ".intercalate levels))

/-- Checks a configuration. -/
def check (c : Config) : Except NodeError Unit := do
  c.checkSources
  let _ ← c.forwardingKeys
  c.checkLevel

/-- The key pairs of sources, in order. -/
def keyPairs (vaults : List Vault) (sources : List KeySource) : Except NodeError (List KeyPair) :=
  sources.zipIdx.mapM fun e => e.1.toPair vaults (sourceField e.2)

end Config

end SealedTx
