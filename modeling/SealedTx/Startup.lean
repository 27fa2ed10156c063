import SealedTx.Config
import SealedTx.Enclave

/-!
# Starting an enclave

An enclave is made from a configuration and the vaults that are at hand: the key pairs of its
sources, the keys that get a copy, and the cipher of nodes. It is handed out only if it serves
requests.
-/

namespace SealedTx

/-- The key table that a configuration asks for. -/
def Config.keyTable (c : Config) (vaults : List Vault) : Except NodeError KeyTable := do
  let pairs ← Config.keyPairs vaults c.sources
  let forwarding ← c.forwardingKeys
  (KeyTable.ofPairs pairs forwarding).mapError .enclave

/-- Refuses an enclave that does not serve requests. -/
def Status.ensureStarted : Status → Except NodeError Unit
  | .started => .ok ()
  | status => .error (.enclave (.unavailable s!"enclave status is {status.name}"))

/-- The enclave that a configuration asks for. -/
def Config.enclave (c : Config) (vaults : List Vault) (draws : Draws) :
    Except NodeError Enclave := do
  let x : Enclave := { encryptor := .standard, keys := ← c.keyTable vaults, draws }
  x.status.ensureStarted
  return x

end SealedTx
