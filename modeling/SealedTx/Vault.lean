import SealedTx.Error

/-!
# Key vaults

Keys may be kept in a vault instead of in the configuration. A vault answers requests for one
secret each; how it does so is not known here, so a vault is any function from requests to
secrets, with the kind of vault that it is. `MemoryVault` is the one that has its secrets at hand.
-/

namespace SealedTx

/-! ## Kinds of vaults -/

/-- A kind of key vault. -/
inductive VaultKind where
  | azure
  | hashicorp
  | aws
deriving DecidableEq, Repr

namespace VaultKind

/-- All kinds. -/
def all : List VaultKind := [azure, hashicorp, aws]

/-- The name of a kind in configurations. -/
def name : VaultKind → String
  | azure => "azure"
  | hashicorp => "hashicorp"
  | aws => "aws"

/-- The kind of exactly a name. -/
def ofName? (s : String) : Option VaultKind := all.find? fun k => k.name == s

/-- The name of a kind in diagnostics. -/
def debug : VaultKind → String
  | azure => "Azure"
  | hashicorp => "Hashicorp"
  | aws => "Aws"

end VaultKind

/-! ## Requests -/

/-- A request for one secret. -/
inductive SecretRequest where
  /-- A secret by its name; the latest version unless one is asked for. -/
  | azure (name : String) (version : Option String)
  /-- A field of a secret; the latest version unless one is asked for. -/
  | hashicorp (engine secret field : String) (version : Option UInt32)
  /-- A secret by its id. -/
  | aws (id : String)
deriving DecidableEq

namespace SecretRequest

/-- The kind of vault that a request is for. -/
def kind : SecretRequest → VaultKind
  | azure _ _ => .azure
  | hashicorp _ _ _ _ => .hashicorp
  | aws _ => .aws

/-- What a secret is called in errors, and where a vault in memory keeps it. No version is part
of it. -/
def label : SecretRequest → String
  | azure name _ => name
  | hashicorp engine secret field _ => s!"{engine}/{secret}#{field}"
  | aws id => id

end SecretRequest

/-! ## Vaults -/

/-- A key vault. -/
structure Vault where
  kind : VaultKind
  fetch : SecretRequest → Except NodeError String

/-- The first vault of a kind. -/
def firstOfKind? (vaults : List Vault) (kind : VaultKind) : Option Vault :=
  vaults.find? fun v => v.kind == kind

/-- Diagnostics show what converts keys by the kinds of its vaults. -/
def vaultsDebug (vaults : List Vault) : String :=
  "KeyPairConverter \x7b vaults: [" ++ ", ".intercalate (vaults.map (·.kind.debug)) ++ "] \x7d"

/-! ## Vaults in memory -/

/-- A vault that has its secrets at hand, each under its label. -/
structure MemoryVault where
  kind : VaultKind
  secrets : List (String × String) := []

namespace MemoryVault

/-- Keeps a secret; one that was kept under the same label gives way. -/
def put (v : MemoryVault) (label secret : String) : MemoryVault :=
  { v with secrets := v.secrets.filter (fun e => e.1 ≠ label) ++ [(label, secret)] }

/-- A vault with the secrets of a list, of which the last one under a label counts. -/
def ofList (kind : VaultKind) (secrets : List (String × String)) : MemoryVault :=
  secrets.foldl (fun v e => v.put e.1 e.2) { kind }

/-- The secret that a request asks for. A request for another kind of vault is refused. -/
def fetch (v : MemoryVault) (r : SecretRequest) : Except NodeError String :=
  if r.kind ≠ v.kind then
    .error (.keyVault v.kind.name r.label s!"request targets {r.kind.name}")
  else
    match v.secrets.lookup r.label with
    | some s => .ok s
    | none => .error (.keyVault v.kind.name r.label "secret not found")

/-- The vault as any other. -/
def toVault (v : MemoryVault) : Vault := ⟨v.kind, v.fetch⟩

/-- Diagnostics show of a vault its kind and how many secrets it has. -/
def debug (v : MemoryVault) : String :=
  "MemoryKeyVault \x7b vault_type: " ++ v.kind.debug ++ ", secrets: " ++
    toString v.secrets.length ++ " \x7d"

end MemoryVault

end SealedTx
