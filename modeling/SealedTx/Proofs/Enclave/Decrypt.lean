import SealedTx.Enclave.Decrypt
import SealedTx.Proofs.Enclave.Encrypt
import SealedTx.Proofs.Payload.View

/-!
# Opening what was sealed

Of a payload only the first box is ever opened. In a payload that was sealed, and in every view of
it, that box is the one of the first recipient (`Sealed.of_forRecipient`, `Sealed.first`). So an
enclave that is not the sender's opens it with the key of the first recipient
(`openAsRecipient_first`), and with no other key if boxes and keys are kept apart
(`openAsRecipient_eq_ok_iff`). They are if no box opens under what the sender shares with somebody
else than the recipient that it was made for (`Sealed.separated`).
-/

namespace SealedTx

namespace Enclave

open Outcome

/-! ## Shared keys -/

/-- Whether the owner of a key of one enclave and the owner of a key of another get the same shared
key, each from its own private key. -/
def AgreesWith (x y : Enclave) (s r : PublicKey) : Prop :=
  ∀ ps pr, x.keys.privateKey s = .ok ps → y.keys.privateKey r = .ok pr →
    x.encryptor.sharedKey r ps = y.encryptor.sharedKey s pr

theorem AgreesWith.sharedKey_eq {x y : Enclave} {s r : PublicKey} (h : x.AgreesWith y s r)
    (hs : x.keys.isManaged s = true) (hr : y.keys.isManaged r = true) :
    x.sharedKey s r = y.sharedKey r s := by
  obtain ⟨ps, hps⟩ := KeyTable.exists_privateKey_iff.2 hs
  obtain ⟨pr, hpr⟩ := KeyTable.exists_privateKey_iff.2 hr
  rw [sharedKey, sharedKey, hps, hpr]
  exact h ps pr hps hpr

/-- Only the owner of a key has what it shares with others. -/
theorem isManaged_of_sharedKey {x : Enclave} {owner other : PublicKey} {shared : SymmetricKey}
    (h : x.sharedKey owner other = .ok shared) : x.keys.isManaged owner = true := by
  obtain ⟨pk, hpk, _⟩ := bind_eq_ok_iff.1 h
  exact KeyTable.exists_privateKey_iff.1 ⟨pk, hpk⟩

/-! ## Boxes -/

theorem openMasterKey_eq (x : Enclave) (sealed : Bytes) (n : Nonce) (other owner : PublicKey) :
    x.openMasterKey sealed n other owner = (do
      let shared ← x.sharedKey owner other
      symmetricKey (← x.encryptor.openBytes sealed n shared)) := by
  rw [openMasterKey, sharedKey, bind_assoc]

/-- Whoever has the key that a box was sealed under gets the master key. -/
theorem openMasterKey_of_boxFor {x y : Enclave} {key : SymmetricKey} {s r other owner : PublicKey}
    {n : Nonce} {box : RecipientBox} (hopens : x.encryptor.OpenedBy y.encryptor)
    (hn : n.bytes.length = nonceSize) (hbox : x.boxFor key s n r = .ok box)
    (hshared : x.sharedKey s r = y.sharedKey owner other) :
    y.openMasterKey box.bytes n other owner = .ok key := by
  obtain ⟨shared, hkey, hseal⟩ := boxFor_eq_ok_iff.1 hbox
  rw [openMasterKey_eq, ← hshared]
  refine bind_eq_ok_iff.2 ⟨shared, hkey, bind_eq_ok_iff.2 ⟨key.bytes, hopens _ _ _ _ hn hseal, ?_⟩⟩
  exact symmetricKey_bytes key

/-- Only the owner of a key opens what is sealed for it. -/
theorem isManaged_of_openMasterKey {x : Enclave} {sealed : Bytes} {n : Nonce}
    {other owner : PublicKey} {key : SymmetricKey}
    (h : x.openMasterKey sealed n other owner = .ok key) : x.keys.isManaged owner = true := by
  rw [openMasterKey_eq] at h
  obtain ⟨shared, hshared, _⟩ := bind_eq_ok_iff.1 h
  exact isManaged_of_sharedKey hshared

/-! ## The first box -/

/-- The boxes of a view hold what those of the payload do. -/
theorem Boxed.of_forRecipient {x : Enclave} {key : SymmetricKey} {p v : Payload} {r : PublicKey}
    (h : x.Boxed key p) (hv : p.forRecipient r = .ok v) : x.Boxed key v := by
  obtain ⟨i, box, hi, hbox, rfl⟩ := Payload.forRecipient_eq_ok_iff.1 hv
  obtain ⟨r', hr', hboxFor⟩ := h i box hbox
  have hr : p.recipients[i]? = some r := Payload.getElem?_of_recipientIndex? hi
  obtain rfl : r' = r := Option.some.inj (hr'.symm.trans hr)
  intro j b hb
  -- the only box is the one at the first place, where the view's own recipient is
  cases j with
  | zero =>
    obtain rfl : box = b := Option.some.inj hb
    refine ⟨r', ?_, hboxFor⟩
    rw [← List.head?_eq_getElem?]
    exact p.head?_viewKeys r'
  | succ j => exact nomatch hb

/-- The first box opens to the master key that the boxes hold. -/
theorem Boxed.openMasterKey_first {x : Enclave} {key : SymmetricKey} {p : Payload}
    {box : RecipientBox} {boxes : List RecipientBox} (hopens : x.encryptor.OpenedBy x.encryptor)
    (hn : p.recipientNonce.bytes.length = nonceSize) (h : x.Boxed key p)
    (hb : p.boxes = box :: boxes) : ∃ first rest, p.recipients = first :: rest ∧
      x.openMasterKey box.bytes p.recipientNonce first p.sender = .ok key := by
  obtain ⟨first, hfirst, hbox⟩ := h 0 box (by rw [hb]; rfl)
  obtain ⟨rest, hrest⟩ := List.head?_eq_some_iff.1 (List.head?_eq_getElem?.trans hfirst)
  exact ⟨first, rest, hrest, openMasterKey_of_boxFor hopens hn hbox rfl⟩

/-- **A view of a sealed payload is a sealed payload.** -/
theorem Sealed.of_forRecipient {x : Enclave} {key : SymmetricKey} {m : Bytes} {p v : Payload}
    {r : PublicKey} (h : x.Sealed key m p) (hv : p.forRecipient r = .ok v) :
    x.Sealed key m v := by
  have hboxes := Boxed.of_forRecipient h.boxes hv
  obtain ⟨i, box, _, _, rfl⟩ := Payload.forRecipient_eq_ok_iff.1 hv
  exact ⟨h.nonce_length, h.recipientNonce_length, h.cipherText, hboxes⟩

/-- The first box is the one of the first recipient. -/
theorem Sealed.first {x : Enclave} {key : SymmetricKey} {m : Bytes} {p : Payload}
    {box : RecipientBox} {rest : List RecipientBox} {r : PublicKey} (h : x.Sealed key m p)
    (hb : p.boxes = box :: rest) (hr : p.recipients.head? = some r) :
    x.boxFor key p.sender p.recipientNonce r = .ok box := by
  obtain ⟨r', hr', hbox⟩ := h.boxes 0 box (by rw [hb]; rfl)
  rw [← List.head?_eq_getElem?, hr] at hr'
  cases hr'
  exact hbox

/-- **The sender takes the master key back** from the first box. -/
theorem Sealed.openMasterKey_first {x : Enclave} {key : SymmetricKey} {m : Bytes} {p : Payload}
    (hopens : x.encryptor.OpenedBy x.encryptor) (h : x.Sealed key m p) (hb : p.boxes ≠ []) :
    ∃ box boxes first rest, p.boxes = box :: boxes ∧ p.recipients = first :: rest ∧
      x.openMasterKey box.bytes p.recipientNonce first p.sender = .ok key := by
  obtain ⟨box, boxes, hboxes⟩ := List.exists_cons_of_ne_nil hb
  obtain ⟨first, rest, hrest, hopen⟩ :=
    Boxed.openMasterKey_first hopens h.recipientNonce_length h.boxes hboxes
  exact ⟨box, boxes, first, rest, hboxes, hrest, hopen⟩

theorem Sealed.masterKey_of_sender {x : Enclave} {key : SymmetricKey} {m : Bytes} {p : Payload}
    (hopens : x.encryptor.OpenedBy x.encryptor) (h : x.Sealed key m p) (hb : p.boxes ≠ []) :
    x.masterKey p = .ok key := by
  obtain ⟨box, boxes, first, rest, hboxes, hrest, hopen⟩ := h.openMasterKey_first hopens hb
  have hs : x.keys.isManaged p.sender = true := isManaged_of_openMasterKey hopen
  simp only [masterKey, hboxes, hs, openAsSender, hrest]
  exact hopen

section Recipient

variable {x y : Enclave} {key : SymmetricKey} {m : Bytes} {p : Payload} {box : RecipientBox}
  {rest : List RecipientBox} {r : PublicKey}

/-- **The first recipient gets the master key.** -/
theorem openAsRecipient_first (hopens : x.encryptor.OpenedBy y.encryptor)
    (h : x.Sealed key m p) (hb : p.boxes = box :: rest) (hr : p.recipients.head? = some r)
    (hmanaged : y.keys.isManaged r = true) (hagree : x.AgreesWith y p.sender r) :
    y.openAsRecipient p box r = .ok key := by
  have hbox := h.first hb hr
  obtain ⟨shared, hshared, _⟩ := boxFor_eq_ok_iff.1 hbox
  refine openMasterKey_of_boxFor hopens h.recipientNonce_length hbox ?_
  exact hagree.sharedKey_eq (isManaged_of_sharedKey hshared) hmanaged

/-- Who is not the sender opens the first box with the key that is named. -/
theorem decrypt_of_not_sender (hs : y.keys.isManaged p.sender = false) (hb : p.boxes = box :: rest)
    (k : PublicKey) :
    y.decrypt p (some k) = (do
      let key ← y.openAsRecipient p box k
      y.encryptor.openBytes p.cipherText p.nonce key) := by
  simp only [decrypt, hb, hs]
  rfl

/-- Who is not the sender tries all its keys on the first box. -/
theorem masterKey_of_not_sender (hs : y.keys.isManaged p.sender = false)
    (hb : p.boxes = box :: rest) :
    y.masterKey p =
      match y.keys.publicKeys.findSome? fun k => (y.openAsRecipient p box k).toOption with
      | some key => .ok key
      | none => .error (.openFailure "unable to decrypt master key") := by
  simp only [masterKey, hb, hs]
  rfl

theorem masterKey_of_only_key (hs : y.keys.isManaged p.sender = false)
    (hb : p.boxes = box :: rest) (hkeys : y.keys.publicKeys = [r])
    (hopen : y.openAsRecipient p box r = .ok key) : y.masterKey p = .ok key := by
  rw [masterKey_of_not_sender hs hb, hkeys, List.findSome?_cons, hopen]
  rfl

/-- **The first recipient reads the message.** -/
theorem decrypt_first (hopens : x.encryptor.OpenedBy y.encryptor) (h : x.Sealed key m p)
    (hs : y.keys.isManaged p.sender = false) (hb : p.boxes = box :: rest)
    (hr : p.recipients.head? = some r) (hmanaged : y.keys.isManaged r = true)
    (hagree : x.AgreesWith y p.sender r) : y.decrypt p (some r) = .ok m := by
  rw [decrypt_of_not_sender hs hb, openAsRecipient_first hopens h hb hr hmanaged hagree]
  exact hopens _ _ _ _ h.nonce_length h.cipherText

end Recipient

/-! ## Nobody else -/

/-- Whether the boxes of a payload are kept apart for the keys of another enclave: both sides of
the sender and a key agree on what they share, a box opens only under the shared key that sealed
it, and no two keys share the same with the sender. -/
structure Separated (x y : Enclave) (p : Payload) : Prop where
  agree : ∀ k, y.keys.isManaged k = true → x.AgreesWith y p.sender k
  opens_only : ∀ r ∈ p.recipients, ∀ k, y.keys.isManaged k = true → ∀ box ∈ p.boxes,
    ∀ {kr kk : SymmetricKey} {plain b : Bytes}, x.sharedKey p.sender r = .ok kr →
    x.sharedKey p.sender k = .ok kk →
    x.encryptor.sealBytes plain p.recipientNonce kr = .ok box.bytes →
    y.encryptor.openBytes box.bytes p.recipientNonce kk = .ok b → kk = kr
  distinct : ∀ r ∈ p.recipients, ∀ k, y.keys.isManaged k = true → ∀ {shared : SymmetricKey},
    x.sharedKey p.sender r = .ok shared → x.sharedKey p.sender k = .ok shared → k = r

section Separated

variable {x y : Enclave} {key : SymmetricKey} {m : Bytes} {p : Payload} {box : RecipientBox}
  {rest : List RecipientBox} {r : PublicKey}

/-- The boxes of a view are kept apart as those of the payload are. -/
theorem Separated.of_forRecipient {v : Payload} (h : x.Separated y p)
    (hv : p.forRecipient r = .ok v) : x.Separated y v := by
  obtain ⟨i, box, hi, hbox, rfl⟩ := Payload.forRecipient_eq_ok_iff.1 hv
  have hr : r ∈ p.recipients := List.mem_of_getElem? (Payload.getElem?_of_recipientIndex? hi)
  have hkeys : ∀ k ∈ p.viewKeys r, k ∈ p.recipients := Payload.viewKeys_subset hr
  have hboxes : ∀ b ∈ [box], b ∈ p.boxes := by
    intro b hb
    obtain rfl := List.mem_singleton.1 hb
    exact List.mem_of_getElem? hbox
  exact ⟨h.agree, fun r hr k hk b hb => h.opens_only r (hkeys r hr) k hk b (hboxes b hb),
    fun r hr => h.distinct r (hkeys r hr)⟩

/-- What the box that is made for one recipient opens to under the key that the sender shares with
another. -/
def openAcross (x y : Enclave) (key : SymmetricKey) (sender : PublicKey) (n : Nonce)
    (r k : PublicKey) : Except EnclaveError Bytes := do
  let box ← x.boxFor key sender n r
  let shared ← x.sharedKey sender k
  y.encryptor.openBytes box.bytes n shared

/-- **The boxes of a sealed payload are kept apart** if none of them opens under the key that the
sender shares with another recipient or with another key of the enclave. -/
theorem Sealed.separated (hopens : x.encryptor.OpenedBy y.encryptor) (h : x.Sealed key m p)
    (hlength : p.boxes.length = p.recipients.length)
    (hagree : ∀ k, y.keys.isManaged k = true → x.AgreesWith y p.sender k)
    (hshut : ∀ r ∈ p.recipients, ∀ k, k ∈ p.recipients ∨ y.keys.isManaged k = true → k ≠ r →
      ∀ b, x.openAcross y key p.sender p.recipientNonce r k ≠ .ok b) : x.Separated y p := by
  have hkey : ∀ r ∈ p.recipients, ∀ k, k ∈ p.recipients ∨ y.keys.isManaged k = true →
      ∀ {box : RecipientBox} {shared : SymmetricKey} {b : Bytes},
        x.boxFor key p.sender p.recipientNonce r = .ok box →
        x.sharedKey p.sender k = .ok shared →
        y.encryptor.openBytes box.bytes p.recipientNonce shared = .ok b → k = r := by
    intro r hr k hk box shared b hbox hshared hopen
    by_contra hne
    refine hshut r hr k hk hne b ?_
    rw [openAcross, hbox, hshared]
    exact hopen
  constructor
  case agree => exact hagree
  case opens_only =>
    intro r hr k hk box hb kr kk plain b hkr hkk hseal hopen
    obtain ⟨i, hi⟩ := List.mem_iff_getElem?.1 hb
    obtain ⟨r', hr', hbox⟩ := h.boxes i box hi
    have hmem : r' ∈ p.recipients := List.mem_of_getElem? hr'
    -- both keys open the box, so both are those of the recipient that it was made for
    obtain rfl : k = r' := hkey r' hmem k (.inr hk) hbox hkk hopen
    obtain rfl : r = k := hkey k hmem r (.inl hr) hbox hkr
      (hopens _ _ _ _ h.recipientNonce_length hseal)
    exact Except.ok.inj (hkk.symm.trans hkr)
  case distinct =>
    intro r hr k hk shared hsharedr hsharedk
    obtain ⟨i, hi, hri⟩ := List.mem_iff_getElem.1 hr
    obtain ⟨r', hr', hbox⟩ := h.boxes i _ (List.getElem?_eq_getElem (hlength ▸ hi))
    rw [List.getElem?_eq_getElem hi, hri] at hr'
    obtain rfl := Option.some.inj hr'
    obtain ⟨shared', hshared', hseal⟩ := boxFor_eq_ok_iff.1 hbox
    obtain rfl := Except.ok.inj (hsharedr.symm.trans hshared')
    exact hkey r hr k (.inr hk) hbox hsharedk (hopens _ _ _ _ h.recipientNonce_length hseal)

/-- **Only the key of the first recipient opens the first box**, and it gives the master key. -/
theorem openAsRecipient_eq_ok_iff (hopens : x.encryptor.OpenedBy y.encryptor)
    (h : x.Sealed key m p) (hapart : x.Separated y p) (hb : p.boxes = box :: rest)
    (hr : p.recipients.head? = some r) {k : PublicKey} {key' : SymmetricKey} :
    y.openAsRecipient p box k = .ok key' ↔
      k = r ∧ y.keys.isManaged k = true ∧ key' = key := by
  have hfirst : k = r → y.keys.isManaged k = true → y.openAsRecipient p box k = .ok key := by
    rintro rfl hk
    exact openAsRecipient_first hopens h hb hr hk (hapart.agree k hk)
  constructor
  · intro hopen
    have hparts := hopen
    rw [openAsRecipient, openMasterKey_eq] at hparts
    obtain ⟨kk, hkk, hparts⟩ := bind_eq_ok_iff.1 hparts
    obtain ⟨b, hopenBytes, _⟩ := bind_eq_ok_iff.1 hparts
    have hk : y.keys.isManaged k = true := isManaged_of_sharedKey hkk
    have hmem : r ∈ p.recipients := List.mem_of_head? hr
    have hboxMem : box ∈ p.boxes := by
      rw [hb]
      exact List.mem_cons_self
    obtain ⟨kr, hkr, hseal⟩ := boxFor_eq_ok_iff.1 (h.first hb hr)
    rw [← (hapart.agree k hk).sharedKey_eq (isManaged_of_sharedKey hkr) hk] at hkk
    -- the key that opened the box is the one it was sealed under, so it is the recipient's
    obtain rfl : kk = kr := hapart.opens_only r hmem k hk box hboxMem hkr hkk hseal hopenBytes
    have hkr' : k = r := hapart.distinct r hmem k hk hkr hkk
    rw [hfirst hkr' hk] at hopen
    exact ⟨hkr', hk, (Except.ok.inj hopen).symm⟩
  · rintro ⟨hkr, hk, rfl⟩
    exact hfirst hkr hk

/-- **Only the first recipient reads the message.** -/
theorem decrypt_eq_ok_iff (hopens : x.encryptor.OpenedBy y.encryptor) (h : x.Sealed key m p)
    (hapart : x.Separated y p) (hs : y.keys.isManaged p.sender = false)
    (hb : p.boxes = box :: rest) (hr : p.recipients.head? = some r) {k : PublicKey} {b : Bytes} :
    y.decrypt p (some k) = .ok b ↔ k = r ∧ y.keys.isManaged k = true ∧ b = m := by
  have htext : y.encryptor.openBytes p.cipherText p.nonce key = .ok m :=
    hopens _ _ _ _ h.nonce_length h.cipherText
  rw [decrypt_of_not_sender hs hb, bind_eq_ok_iff]
  constructor
  · rintro ⟨key', hopen, hdecrypt⟩
    obtain ⟨hkr, hk, rfl⟩ := (openAsRecipient_eq_ok_iff hopens h hapart hb hr).1 hopen
    rw [htext] at hdecrypt
    exact ⟨hkr, hk, (Except.ok.inj hdecrypt).symm⟩
  · rintro ⟨hkr, hk, rfl⟩
    exact ⟨key, (openAsRecipient_eq_ok_iff hopens h hapart hb hr).2 ⟨hkr, hk, rfl⟩, htext⟩

/-- **Whoever keeps the key of the first recipient finds the master key**, whatever other keys are
tried before it; whoever does not finds none. -/
theorem masterKey_eq (hopens : x.encryptor.OpenedBy y.encryptor) (h : x.Sealed key m p)
    (hapart : x.Separated y p) (hs : y.keys.isManaged p.sender = false)
    (hb : p.boxes = box :: rest) (hr : p.recipients.head? = some r) :
    y.masterKey p = if y.keys.isManaged r = true then .ok key
      else .error (.openFailure "unable to decrypt master key") := by
  have hopen : ∀ {k : PublicKey} {key' : SymmetricKey},
      (y.openAsRecipient p box k).toOption = some key' ↔
        k = r ∧ y.keys.isManaged k = true ∧ key' = key := by
    intro k key'
    rw [toOption_eq_some_iff]
    exact openAsRecipient_eq_ok_iff hopens h hapart hb hr
  rw [masterKey_of_not_sender hs hb]
  -- no key but the recipient's opens the box, so the first one that does is the recipient's
  cases hfind : y.keys.publicKeys.findSome? fun k => (y.openAsRecipient p box k).toOption with
  | some key' =>
    obtain ⟨k, _, hk⟩ := List.exists_of_findSome?_eq_some hfind
    obtain ⟨rfl, hmanaged, rfl⟩ := hopen.1 hk
    rw [if_pos hmanaged]
  | none =>
    rw [if_neg]
    intro hmanaged
    have hnone := List.findSome?_eq_none_iff.1 hfind r (KeyTable.isManaged_iff.1 hmanaged)
    rw [hopen.2 ⟨rfl, hmanaged, rfl⟩] at hnone
    exact nomatch hnone

end Separated

end Enclave

end SealedTx
