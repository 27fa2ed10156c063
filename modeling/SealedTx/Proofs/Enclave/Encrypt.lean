import SealedTx.Enclave.Encrypt
import SealedTx.Proofs.Action
import SealedTx.Proofs.Encryptor
import SealedTx.Proofs.KeyTable
import SealedTx.Proofs.Payload

/-!
# What an encryption comes to

An encryption draws a master key and two nonces; from then on it only fails or goes on, so what it
comes to is an equation in these three draws (`result_encrypt`). The same holds of a message that is
staged (`result_encryptRaw`) and of its addressing (`result_encryptFromRaw`). A box that is made
later draws nothing (`gives_newBox`).

What came of a successful encryption is kept as `Sealed`: the cipher text is the message under the
master key, and every box is the one of the recipient at its place.
-/

namespace SealedTx

/-- Whether all nonces that are drawn have the length that the cipher takes. -/
def Draws.Fit (d : Draws) : Prop := ∀ n, (d.nonce n).bytes.length = nonceSize

theorem Draws.counting_fit (seed : Nat) : (Draws.counting seed).Fit := by
  intro n
  simp [counting, countingBytes]

namespace Enclave

/-! ## Boxes without a ledger -/

/-- The key that the owner of a key of the enclave shares with the owner of another. -/
def sharedKey (x : Enclave) (owner other : PublicKey) : Except EnclaveError SymmetricKey := do
  x.encryptor.sharedKey other (← x.keys.privateKey owner)

/-- The box of a master key for one recipient. -/
def boxFor (x : Enclave) (masterKey : SymmetricKey) (sender : PublicKey) (n : Nonce)
    (recipient : PublicKey) : Except EnclaveError RecipientBox := do
  let shared ← x.sharedKey sender recipient
  return ⟨← x.encryptor.sealBytes masterKey.bytes n shared⟩

/-- The boxes of a master key for all recipients, in order. -/
def boxesFor (x : Enclave) (masterKey : SymmetricKey) (sender : PublicKey) (n : Nonce)
    (recipients : List PublicKey) : Except EnclaveError (List RecipientBox) := do
  let _ ← x.keys.privateKey sender
  recipients.mapM (x.boxFor masterKey sender n)

/-- The payload of a sealed message, addressed to its recipients. -/
def address (x : Enclave) (masterKey : SymmetricKey) (sender : PublicKey) (cipherText : Bytes)
    (nonce recipientNonce : Nonce) (recipients : List PublicKey) (md : Metadata) :
    Except EnclaveError Payload := do
  let boxes ← x.boxesFor masterKey sender recipientNonce recipients
  x.assemble sender cipherText nonce boxes recipientNonce recipients md

theorem gives_sealBytes (x : Enclave) (plain : Bytes) (n : Nonce) (k : SymmetricKey) :
    (x.sealBytes plain n k).Gives (x.encryptor.sealBytes plain n k) := by
  intro l
  exact Action.gives_ofExcept _ { l with calls := ⟨plain, n, k⟩ :: l.calls }

theorem gives_sealFor {x : Enclave} {sender : PublicKey} {pk : PrivateKey}
    (h : x.keys.privateKey sender = .ok pk) (masterKey : SymmetricKey) (n : Nonce)
    (r : PublicKey) : (x.sealFor masterKey pk n r).Gives (x.boxFor masterKey sender n r) := by
  have hshared : x.sharedKey sender r = x.encryptor.sharedKey r pk := by
    rw [sharedKey, h]
    rfl
  rw [boxFor, hshared, sealFor]
  refine (Action.gives_ofExcept _).bind fun shared _ => ?_
  exact (gives_sealBytes x _ n shared).bind fun b _ => Action.gives_pure _

theorem gives_sealForAll (x : Enclave) (masterKey : SymmetricKey) (sender : PublicKey) (n : Nonce)
    (rs : List PublicKey) :
    (x.sealForAll masterKey sender n rs).Gives (x.boxesFor masterKey sender n rs) :=
  (Action.gives_ofExcept _).bind fun _ h => Action.gives_mapM (gives_sealFor h masterKey n) rs

/-- **What an encryption comes to**, by the master key and the two nonces that it draws. -/
theorem result_encrypt (x : Enclave) (m : Bytes) (s : PublicKey) (rs : List PublicKey)
    (md : Metadata) (l : Ledger) :
    (x.encrypt m s rs md).result l = (do
      let cipherText ← x.encryptor.sealBytes m (x.draws.nonce (l.drawn + 1))
        (x.draws.masterKey l.drawn)
      x.address (x.draws.masterKey l.drawn) s cipherText (x.draws.nonce (l.drawn + 1))
        (x.draws.nonce (l.drawn + 2)) rs md) := by
  -- the draws come first, so all sealing starts from a ledger with three more of them
  refine ((gives_sealBytes x m _ _).bind fun c _ => ?_) { l with drawn := l.drawn + 3 }
  exact (gives_sealForAll x _ s _ rs).bind fun boxes _ => Action.gives_ofExcept _

/-- **What staging comes to**, by the master key and the nonce that it draws. -/
theorem result_encryptRaw (x : Enclave) (m : Bytes) (s : PublicKey) (l : Ledger) :
    (x.encryptRaw m s).result l = (do
      let _ ← x.keys.privateKey s
      let cipherText ← x.encryptor.sealBytes m (x.draws.nonce (l.drawn + 1))
        (x.draws.masterKey l.drawn)
      let box ← x.boxFor (x.draws.masterKey l.drawn) s (x.draws.nonce (l.drawn + 1)) s
      return { cipherText, sealedKey := box.bytes, nonce := x.draws.nonce (l.drawn + 1),
               sender := s }) := by
  cases hpk : x.keys.privateKey s with
  | error e =>
    rw [encryptRaw, hpk]
    rfl
  | ok pk =>
    have hshared : x.sharedKey s s = x.encryptor.sharedKey s pk := by
      rw [sharedKey, hpk]
      rfl
    rw [encryptRaw, hpk]
    -- the key that the sender shares with itself is sealed under directly, not as a box
    simp only [boxFor, hshared, bind_assoc]
    refine ((gives_sealBytes x m _ _).bind fun c _ => ?_) { l with drawn := l.drawn + 2 }
    refine (Action.gives_ofExcept _).bind fun shared _ => ?_
    exact (gives_sealBytes x _ _ shared).bind fun b _ => Action.gives_pure _

/-- **What addressing a staged message comes to**, by the nonce that it draws. -/
theorem result_encryptFromRaw (x : Enclave) (raw : RawTransaction) (rs : List PublicKey)
    (md : Metadata) (l : Ledger) :
    (x.encryptFromRaw raw rs md).result l = (do
      let key ← x.rawMasterKey raw
      x.address key raw.sender raw.cipherText raw.nonce (x.draws.nonce l.drawn) rs md) := by
  rw [encryptFromRaw]
  cases x.rawMasterKey raw with
  | error e => rfl
  | ok key =>
    exact ((gives_sealForAll x key _ _ rs).bind fun boxes _ => Action.gives_ofExcept _)
      { l with drawn := l.drawn + 1 }

/-- **What a box for one more recipient comes to**: the master key is taken from the first box. -/
theorem gives_newBox (x : Enclave) {p : Payload} {first : PublicKey} {box : RecipientBox}
    {rs : List PublicKey} {boxes : List RecipientBox} (hr : p.recipients = first :: rs)
    (hb : p.boxes = box :: boxes) (r : PublicKey) :
    (x.newBox p r).Gives (do
      let key ← x.openMasterKey box.bytes p.recipientNonce first p.sender
      x.boxFor key p.sender p.recipientNonce r) := by
  rw [newBox, hr, hb]
  refine (Action.gives_ofExcept _).bind fun key _ => ?_
  have hbox : x.boxFor key p.sender p.recipientNonce r = (do
      let _ ← x.keys.privateKey p.sender
      x.boxFor key p.sender p.recipientNonce r) := by
    cases hpk : x.keys.privateKey p.sender with
    | error e => simp [boxFor, sharedKey, hpk, bind, Except.bind]
    | ok pk => rfl
  rw [hbox]
  exact (Action.gives_ofExcept _).bind fun pk hpk => gives_sealFor hpk key _ r

/-! ## What a payload is made of -/

open Outcome

/-- A box is sealed under the key that its recipient shares with the sender. -/
theorem boxFor_eq_ok_iff {x : Enclave} {key : SymmetricKey} {s r : PublicKey} {n : Nonce}
    {box : RecipientBox} :
    x.boxFor key s n r = .ok box ↔ ∃ shared, x.sharedKey s r = .ok shared ∧
      x.encryptor.sealBytes key.bytes n shared = .ok box.bytes := by
  constructor
  · intro h
    obtain ⟨shared, hshared, h⟩ := bind_eq_ok_iff.1 h
    obtain ⟨b, hb, h⟩ := bind_eq_ok_iff.1 h
    cases h
    exact ⟨shared, hshared, hb⟩
  · rintro ⟨shared, hshared, hb⟩
    exact bind_eq_ok_iff.2 ⟨shared, hshared, bind_eq_ok_iff.2 ⟨box.bytes, hb, rfl⟩⟩

/-- The parts of a payload that was assembled. -/
theorem of_assemble {x : Enclave} {s : PublicKey} {c : Bytes} {n rn : Nonce}
    {boxes : List RecipientBox} {rs : List PublicKey} {md : Metadata} {p : Payload}
    (h : x.assemble s c n boxes rn rs md = .ok p) :
    ∃ hashes, x.securityHashes c md.affected.entries = .ok hashes ∧ p.sender = s ∧
      p.toContents = {
        cipherText := c, nonce := n, boxes, recipientNonce := rn, recipients := rs
        mode := md.mode, affected := .ofList hashes, execHash := md.execHash
        mandatory := md.mandatory, groupId := nonemptyGroupId md.groupId } := by
  obtain ⟨hashes, hhashes, hbuild⟩ := bind_eq_ok_iff.1 h
  obtain ⟨hsender, hcontents⟩ := Draft.of_build hbuild
  exact ⟨hashes, hhashes, (Option.some.inj hsender).symm, hcontents⟩

/-- Whether the boxes of a payload hold a master key, each for the recipient at its place. -/
def Boxed (x : Enclave) (masterKey : SymmetricKey) (p : Payload) : Prop :=
  ∀ (i : Nat) (box : RecipientBox), p.boxes[i]? = some box →
    ∃ r, p.recipients[i]? = some r ∧ x.boxFor masterKey p.sender p.recipientNonce r = .ok box

/-- A sealed message is addressed with boxes of its master key. -/
theorem boxed_of_address {x : Enclave} {key : SymmetricKey} {s : PublicKey} {c : Bytes}
    {n rn : Nonce} {rs : List PublicKey} {md : Metadata} {p : Payload}
    (h : x.address key s c n rn rs md = .ok p) : x.Boxed key p ∧ p.recipientNonce = rn := by
  obtain ⟨boxes, hboxes, h⟩ := bind_eq_ok_iff.1 h
  obtain ⟨_, _, hboxes⟩ := bind_eq_ok_iff.1 hboxes
  obtain ⟨hashes, _, rfl, hp⟩ := of_assemble h
  rw [Boxed, hp]
  exact ⟨fun i box hbox => exists_of_mapM_eq_ok hboxes hbox, rfl⟩

/-- **What an encryption that succeeded is made of.** -/
theorem of_encrypt {x : Enclave} {m : Bytes} {s : PublicKey} {rs : List PublicKey} {md : Metadata}
    {l : Ledger} {p : Payload} (h : (x.encrypt m s rs md).result l = .ok p) :
    ∃ cipherText boxes hashes,
      x.encryptor.sealBytes m (x.draws.nonce (l.drawn + 1)) (x.draws.masterKey l.drawn) =
        .ok cipherText ∧
      rs.mapM (x.boxFor (x.draws.masterKey l.drawn) s (x.draws.nonce (l.drawn + 2))) = .ok boxes ∧
      x.securityHashes cipherText md.affected.entries = .ok hashes ∧ p.sender = s ∧
      p.toContents = {
        cipherText, nonce := x.draws.nonce (l.drawn + 1), boxes
        recipientNonce := x.draws.nonce (l.drawn + 2), recipients := rs, mode := md.mode
        affected := .ofList hashes, execHash := md.execHash, mandatory := md.mandatory
        groupId := nonemptyGroupId md.groupId } := by
  rw [result_encrypt] at h
  obtain ⟨c, hc, h⟩ := bind_eq_ok_iff.1 h
  obtain ⟨boxes, hboxes, h⟩ := bind_eq_ok_iff.1 h
  obtain ⟨_, _, hboxes⟩ := bind_eq_ok_iff.1 hboxes
  obtain ⟨hashes, hhashes, hsender, hp⟩ := of_assemble h
  exact ⟨c, boxes, hashes, hc, hboxes, hhashes, hsender, hp⟩

/-- There are boxes if the sender's key is kept and shares keys with all recipients, and the nonce
is one that the cipher takes. -/
theorem exists_boxesFor {x : Enclave} {key : SymmetricKey} {s : PublicKey} {rs : List PublicKey}
    {n : Nonce} (hseals : x.encryptor.Seals) (hn : n.bytes.length = nonceSize)
    (hs : x.keys.isManaged s = true)
    (hshared : ∀ r ∈ rs, ∃ shared, x.sharedKey s r = .ok shared) :
    ∃ boxes, x.boxesFor key s n rs = .ok boxes := by
  obtain ⟨pk, hpk⟩ := KeyTable.exists_privateKey_iff.2 hs
  obtain ⟨boxes, hboxes⟩ : ∃ boxes, rs.mapM (x.boxFor key s n) = .ok boxes := by
    refine exists_mapM_eq_ok fun r hr => ?_
    obtain ⟨shared, hr⟩ := hshared r hr
    obtain ⟨b, hb⟩ := hseals key.bytes n shared hn
    exact ⟨⟨b⟩, boxFor_eq_ok_iff.2 ⟨shared, hr, hb⟩⟩
  exact ⟨boxes, bind_eq_ok_iff.2 ⟨pk, hpk, hboxes⟩⟩

/-- An encryption succeeds if its nonces are ones that the cipher takes, the sender's key is kept,
and there are shared keys for all recipients and master keys of all affected transactions. -/
theorem exists_encrypt {x : Enclave} {s : PublicKey} {rs : List PublicKey} {md : Metadata}
    (hseals : x.encryptor.Seals) (hfit : x.draws.Fit) (hs : x.keys.isManaged s = true)
    (hshared : ∀ r ∈ rs, ∃ shared, x.sharedKey s r = .ok shared)
    (haffected : ∀ e ∈ md.affected.entries, ∃ key, x.masterKey e.2 = .ok key) (m : Bytes)
    (l : Ledger) : ∃ p, (x.encrypt m s rs md).result l = .ok p := by
  obtain ⟨c, hc⟩ := hseals m _ (x.draws.masterKey l.drawn) (hfit (l.drawn + 1))
  obtain ⟨boxes, hboxes⟩ : ∃ boxes, x.boxesFor (x.draws.masterKey l.drawn) s
      (x.draws.nonce (l.drawn + 2)) rs = .ok boxes :=
    exists_boxesFor hseals (hfit _) hs hshared
  obtain ⟨hashes, hhashes⟩ : ∃ hashes, x.securityHashes c md.affected.entries = .ok hashes := by
    refine exists_mapM_eq_ok fun e he => ?_
    obtain ⟨key, hkey⟩ := haffected e he
    exact ⟨_, bind_eq_ok_iff.2 ⟨_, bind_eq_ok_iff.2 ⟨key, hkey, rfl⟩, rfl⟩⟩
  -- metadata keeps its mode's promise, so the payload builds
  obtain ⟨p, hp⟩ : ∃ p, x.assemble s c (x.draws.nonce (l.drawn + 1)) boxes
      (x.draws.nonce (l.drawn + 2)) rs md = .ok p :=
    ⟨_, bind_eq_ok_iff.2 ⟨hashes, hhashes, Draft.build_of_admits rfl md.admitted⟩⟩
  refine ⟨p, ?_⟩
  rw [result_encrypt]
  exact bind_eq_ok_iff.2 ⟨c, hc, bind_eq_ok_iff.2 ⟨boxes, hboxes, hp⟩⟩

/-- A message is staged if the nonce is one that the cipher takes and the sender shares a key with
itself. -/
theorem exists_encryptRaw {x : Enclave} {s : PublicKey} (hseals : x.encryptor.Seals)
    (hfit : x.draws.Fit) (hs : x.keys.isManaged s = true)
    (hshared : ∃ shared, x.sharedKey s s = .ok shared) (m : Bytes) (l : Ledger) :
    ∃ raw, (x.encryptRaw m s).result l = .ok raw := by
  obtain ⟨pk, hpk⟩ := KeyTable.exists_privateKey_iff.2 hs
  obtain ⟨c, hc⟩ := hseals m _ (x.draws.masterKey l.drawn) (hfit (l.drawn + 1))
  obtain ⟨shared, hshared⟩ := hshared
  obtain ⟨b, hb⟩ := hseals (x.draws.masterKey l.drawn).bytes _ shared (hfit (l.drawn + 1))
  have hbox := boxFor_eq_ok_iff.2 ⟨shared, hshared, hb⟩
  rw [result_encryptRaw, hpk, ok_bind, hc, ok_bind, hbox]
  exact ⟨_, rfl⟩

/-- Whether a payload holds a message sealed under a master key, and its boxes hold that key:
every box is the one of the recipient at its place. -/
structure Sealed (x : Enclave) (masterKey : SymmetricKey) (m : Bytes) (p : Payload) : Prop where
  nonce_length : p.nonce.bytes.length = nonceSize
  recipientNonce_length : p.recipientNonce.bytes.length = nonceSize
  cipherText : x.encryptor.sealBytes m p.nonce masterKey = .ok p.cipherText
  boxes : ∀ (i : Nat) (box : RecipientBox), p.boxes[i]? = some box →
    ∃ r, p.recipients[i]? = some r ∧ x.boxFor masterKey p.sender p.recipientNonce r = .ok box

/-- **An encryption seals its message** and addresses it to its recipients, if the nonces that it
draws are ones that the cipher takes. -/
theorem sealed_of_encrypt {x : Enclave} {m : Bytes} {s : PublicKey} {rs : List PublicKey}
    {md : Metadata} {l : Ledger} {p : Payload} (hfit : x.draws.Fit)
    (h : (x.encrypt m s rs md).result l = .ok p) :
    x.Sealed (x.draws.masterKey l.drawn) m p ∧ p.sender = s ∧ p.recipients = rs ∧
      p.boxes.length = rs.length := by
  obtain ⟨c, boxes, hashes, hc, hboxes, _, rfl, hp⟩ := of_encrypt h
  refine ⟨?_, rfl, by rw [hp], ?_⟩
  · constructor
    case nonce_length | recipientNonce_length =>
      rw [hp]
      exact hfit _
    case cipherText =>
      rw [hp]
      exact hc
    case boxes =>
      rw [hp]
      exact fun i box hbox => exists_of_mapM_eq_ok hboxes hbox
  · rw [hp]
    exact length_of_mapM_eq_ok hboxes

end Enclave

end SealedTx
