import SealedTx.Config.Reader
import SealedTx.Startup

/-!
# The command line

An operator checks a configuration before the node starts: whether it is valid, which public keys
it has, and whether an enclave starts from it. No vault can be reached from the command line, so
the last two need keys that are written in the configuration.

`run` is the whole of it but for the file: it takes what was read and gives what to print.
-/

namespace SealedTx

/-- What an operator asks for. -/
inductive Command where
  /-- Whether the configuration is valid. -/
  | validate
  /-- The public keys of the configuration. -/
  | keys
  /-- Whether an enclave starts. -/
  | status
deriving DecidableEq, Repr

namespace Command

/-- All commands. -/
def all : List Command := [validate, keys, status]

/-- The word for a command. -/
def name : Command → String
  | validate => "validate"
  | keys => "keys"
  | status => "status"

/-- The command of exactly a word. -/
def ofName? (s : String) : Option Command := all.find? fun c => c.name == s

/-- Why a file that is not there cannot be read. -/
def missingFile : String := "No such file or directory (os error 2)"

/-- An error behind what was attempted. -/
def whileDoing {α : Type} (context : String) (r : Except NodeError α) : Except String α :=
  r.mapError fun e => s!"{context}: {e.message}"

/-- The first source that needs a vault, by its place. -/
def firstVault? (sources : List KeySource) : Option (Nat × VaultKind) :=
  sources.zipIdx.findSome? fun e => e.1.vaultKind?.map fun kind => (e.2, kind)

/-- Refuses a configuration with keys in a vault. -/
def requireInline (c : Config) : Except String Unit :=
  match firstVault? c.sources with
  | some (i, kind) =>
    .error s!"{Config.sourceField i}: {kind.name} key vault is not supported by this binary"
  | none => .ok ()

/-- What is told of a valid configuration. -/
def validReport (c : Config) : String :=
  "✅ Configuration is valid\n" ++
    s!"   Key pairs:       {c.sources.length}\n" ++
    s!"   Forwarding keys: {c.forwarding.length}\n" ++
    s!"   Codec:           {c.codec.name}\n" ++
    s!"   Digest:          {c.digest.name}\n"

/-- Keys on a line each. -/
def keyLines (ks : List PublicKey) : String :=
  String.join (ks.map fun k => s!"   {k.toBase64}\n")

/-- What is told of the keys of a node. -/
def keysReport (t : KeyTable) : String :=
  "Default key:\n" ++ keyLines [t.defaultKey] ++ "Managed keys:\n" ++ keyLines t.publicKeys ++
    "Forwarding keys:\n" ++ keyLines t.forwarding.toList

/-- What is told of an enclave that started. -/
def statusReport (x : Enclave) : String :=
  s!"Enclave status:  {x.status.name}\n" ++
    s!"Default key:     {x.keys.defaultKey.toBase64}\n" ++
    s!"Managed keys:    {x.keys.size}\n"

/-- The configuration in a file, of which the contents are given or why they cannot be read. -/
def loadFile (path : String) : (contents : Except String String) → Except NodeError Config
  | .ok text => Config.load path text
  | .error reason => .error (.configLoad path reason)

/-- What a command prints for the file at a path, or why it fails. -/
def run (c : Command) (path : String) (contents : Except String String) (draws : Draws) :
    Except String String := do
  let config ← whileDoing s!"cannot use configuration {path}" (loadFile path contents)
  match c with
  | validate => return validReport config
  | keys =>
    requireInline config
    return keysReport (← whileDoing "failed to build key manager" (config.keyTable []))
  | status =>
    requireInline config
    return statusReport (← whileDoing "failed to start enclave" (config.enclave [] draws))

end Command

end SealedTx
