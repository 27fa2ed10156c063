import SealedTx.Proofs.Enclave.Affected

/-!
# Two ways to the master key

An enclave finds the master key of a payload in two places: to read the message, with a key that the
caller names, and to check what the payload affects, with whatever key it has. They agree on every
payload that has a box, also on one that nobody sealed: with other numbers of keys and boxes, with a
nonce that no cipher takes, with a sender's key that nobody can share a secret with (`roles_agree`).

The sender opens the first box with the key of the first recipient in both. Anybody else who looks
for the master key tries all keys in the order of their bytes and takes what the first one gives
that opens the box; the errors of those before it are not told. So what the search comes to can be
said without it: it finds what the least key gives that opens the first box (`FirstToOpen`), and
naming that key reads the message.
-/

namespace SealedTx.Enclave

open Outcome

variable {x : Enclave} {p : Payload} {box : RecipientBox} {boxes : List RecipientBox}
  {l : PublicKey} {key : SymmetricKey}

/-! ## Keys that open the first box -/

/-- Whether a key that the enclave keeps opens the first box of a payload to a master key, with what
its owner shares with the sender. -/
def OpensFirst (x : Enclave) (p : Payload) (l : PublicKey) (key : SymmetricKey) : Prop :=
  ∃ box boxes pk shared, p.boxes = box :: boxes ∧ x.keys.privateKey l = .ok pk ∧
    x.encryptor.sharedKey p.sender pk = .ok shared ∧
    x.encryptor.openBytes box.bytes p.recipientNonce shared = .ok key.bytes

/-- Whether a key is the least one, in the order of bytes, of those that open the first box. -/
def FirstToOpen (x : Enclave) (p : Payload) (l : PublicKey) (key : SymmetricKey) : Prop :=
  x.OpensFirst p l key ∧ ∀ l' key', x.OpensFirst p l' key' → ¬l'.bytes < l.bytes

theorem openMasterKey_eq_ok_iff {sealed : Bytes} {n : Nonce} {other owner : PublicKey} :
    x.openMasterKey sealed n other owner = .ok key ↔ ∃ pk shared,
      x.keys.privateKey owner = .ok pk ∧ x.encryptor.sharedKey other pk = .ok shared ∧
        x.encryptor.openBytes sealed n shared = .ok key.bytes := by
  constructor
  · intro h
    obtain ⟨pk, hpk, h⟩ := bind_eq_ok_iff.1 h
    obtain ⟨shared, hshared, h⟩ := bind_eq_ok_iff.1 h
    obtain ⟨b, hb, h⟩ := bind_eq_ok_iff.1 h
    obtain rfl := symmetricKey_eq_ok_iff.1 h
    exact ⟨pk, shared, hpk, hshared, hb⟩
  · rintro ⟨pk, shared, hpk, hshared, hb⟩
    rw [openMasterKey, hpk, ok_bind, hshared, ok_bind, hb, ok_bind, symmetricKey_bytes]

theorem opensFirst_iff (hb : p.boxes = box :: boxes) :
    x.OpensFirst p l key ↔ x.openAsRecipient p box l = .ok key := by
  rw [openAsRecipient, openMasterKey_eq_ok_iff]
  constructor
  · rintro ⟨box', boxes', pk, shared, hb', h⟩
    rw [hb] at hb'
    cases hb'
    exact ⟨pk, shared, h⟩
  · rintro ⟨pk, shared, h⟩
    exact ⟨box, boxes, pk, shared, hb, h⟩

/-- Only a key that the enclave keeps opens anything. -/
theorem OpensFirst.mem_publicKeys (h : x.OpensFirst p l key) : l ∈ x.keys.publicKeys := by
  obtain ⟨_, _, pk, _, _, hpk, _, _⟩ := h
  exact KeyTable.isManaged_iff.1 (KeyTable.exists_privateKey_iff.1 ⟨pk, hpk⟩)

/-! ## The search -/

/-- What the first of the enclave's keys gives that opens a box. -/
def firstOpened? (x : Enclave) (p : Payload) (box : RecipientBox) : Option SymmetricKey :=
  x.keys.publicKeys.findSome? fun l => (x.openAsRecipient p box l).toOption

theorem toOption_openAsRecipient_iff (hb : p.boxes = box :: boxes) :
    (x.openAsRecipient p box l).toOption = some key ↔ x.OpensFirst p l key := by
  rw [toOption_eq_some_iff, opensFirst_iff hb]

/-- **The search finds what the least key gives that opens the box.** -/
theorem firstOpened?_eq_some_iff (hb : p.boxes = box :: boxes) :
    x.firstOpened? p box = some key ↔ ∃ l, x.FirstToOpen p l key := by
  rw [firstOpened?, SortedSet.findSome?_eq_some_iff x.keys.publicKeys_pairwise]
  constructor
  · rintro ⟨l, _, hl, hleast⟩
    refine ⟨l, (toOption_openAsRecipient_iff hb).1 hl, fun l' key' h => ?_⟩
    exact hleast l' h.mem_publicKeys key' ((toOption_openAsRecipient_iff hb).2 h)
  · rintro ⟨l, hl, hleast⟩
    refine ⟨l, hl.mem_publicKeys, (toOption_openAsRecipient_iff hb).2 hl, ?_⟩
    intro l' _ key' h
    exact hleast l' key' ((toOption_openAsRecipient_iff hb).1 h)

/-- It finds nothing only if no key opens the box. -/
theorem firstOpened?_eq_none_iff (hb : p.boxes = box :: boxes) :
    x.firstOpened? p box = none ↔ ¬∃ l key, x.OpensFirst p l key := by
  rw [firstOpened?, List.findSome?_eq_none_iff]
  constructor
  · rintro h ⟨l, key, hl⟩
    have hsome := (toOption_openAsRecipient_iff hb).2 hl
    rw [h l hl.mem_publicKeys] at hsome
    cases hsome
  · intro h l _
    refine Option.eq_none_iff_forall_ne_some.2 fun key hkey => ?_
    exact h ⟨l, key, (toOption_openAsRecipient_iff hb).1 hkey⟩

theorem masterKey_of_firstOpened (hs : x.keys.isManaged p.sender = false)
    (hb : p.boxes = box :: boxes) (hkey : x.firstOpened? p box = some key) :
    x.masterKey p = .ok key := by
  rw [masterKey_of_not_sender hs hb, ← firstOpened?, hkey]

theorem masterKey_of_none_opened (hs : x.keys.isManaged p.sender = false)
    (hb : p.boxes = box :: boxes) (hnone : x.firstOpened? p box = none) :
    x.masterKey p = .error (.openFailure "unable to decrypt master key") := by
  rw [masterKey_of_not_sender hs hb, ← firstOpened?, hnone]

theorem masterKey_eq_ok_iff (hs : x.keys.isManaged p.sender = false)
    (hb : p.boxes = box :: boxes) :
    x.masterKey p = .ok key ↔ ∃ l, x.FirstToOpen p l key := by
  rw [← firstOpened?_eq_some_iff hb]
  refine ⟨fun h => ?_, masterKey_of_firstOpened hs hb⟩
  cases hfind : x.firstOpened? p box with
  | none =>
    rw [masterKey_of_none_opened hs hb hfind] at h
    cases h
  | some key' =>
    rw [masterKey_of_firstOpened hs hb hfind] at h
    cases h
    rfl

/-! ## Reading -/

/-- The sender reads the message with the master key that it finds, whatever key is named. -/
theorem decrypt_eq_of_sender (hs : x.keys.isManaged p.sender = true) (hb : p.boxes = box :: boxes)
    (localKey : Option PublicKey) : x.decrypt p localKey = (do
      x.encryptor.openBytes p.cipherText p.nonce (← x.masterKey p)) := by
  simp only [decrypt, masterKey, hb, hs, if_true]

/-- Who is not the sender reads the message with what the named key gives. -/
theorem OpensFirst.decrypt_eq (h : x.OpensFirst p l key)
    (hs : x.keys.isManaged p.sender = false) :
    x.decrypt p (some l) = x.encryptor.openBytes p.cipherText p.nonce key := by
  obtain ⟨box, boxes, _, _, hb, _⟩ := id h
  rw [decrypt_of_not_sender hs hb, (opensFirst_iff hb).1 h, ok_bind]

theorem exists_error_of_not_opens (hs : x.keys.isManaged p.sender = false)
    (hb : p.boxes = box :: boxes) (h : ∀ key, ¬x.OpensFirst p l key) :
    ∃ e, x.decrypt p (some l) = .error e := by
  rw [decrypt_of_not_sender hs hb]
  cases hopen : x.openAsRecipient p box l with
  | error e => exact ⟨e, rfl⟩
  | ok key => exact absurd ((opensFirst_iff hb).2 hopen) (h key)

/-- **Both ways to the master key agree**, on every payload with a box. The sender reads the message
with the master key that is found, or fails as finding it does. Anybody else finds one exactly if a
key opens the first box, namely what the least such key gives; with that key named, as with any that
opens the box, the message is read. If there is no such key then both fail, the search with an error
of its own. -/
theorem roles_agree (hb : p.boxes ≠ []) :
    (x.keys.isManaged p.sender = true → ∀ localKey,
      (∀ key, x.masterKey p = .ok key →
        x.decrypt p localKey = x.encryptor.openBytes p.cipherText p.nonce key) ∧
      ∀ e, x.masterKey p = .error e → x.decrypt p localKey = .error e) ∧
    (x.keys.isManaged p.sender = false →
      ((∃ key, x.masterKey p = .ok key) ↔ ∃ l key, x.OpensFirst p l key) ∧
      (∀ key, x.masterKey p = .ok key ↔ ∃ l, x.FirstToOpen p l key) ∧
      (∀ l key, x.OpensFirst p l key →
        x.decrypt p (some l) = x.encryptor.openBytes p.cipherText p.nonce key) ∧
      ((¬∃ l key, x.OpensFirst p l key) →
        x.masterKey p = .error (.openFailure "unable to decrypt master key") ∧
        ∀ l, ∃ e, x.decrypt p (some l) = .error e)) := by
  obtain ⟨box, boxes, hb⟩ := List.exists_cons_of_ne_nil hb
  constructor
  · intro hs localKey
    rw [decrypt_eq_of_sender hs hb]
    constructor
    · intro key hkey
      rw [hkey, ok_bind]
    · intro e he
      rw [he, error_bind]
  · intro hs
    have hnone : (¬∃ l key, x.OpensFirst p l key) →
        x.masterKey p = .error (.openFailure "unable to decrypt master key") := fun h =>
      masterKey_of_none_opened hs hb ((firstOpened?_eq_none_iff hb).2 h)
    refine ⟨⟨?_, ?_⟩, fun key => masterKey_eq_ok_iff hs hb, fun l key h => h.decrypt_eq hs, ?_⟩
    · rintro ⟨key, h⟩
      obtain ⟨l, hl, _⟩ := (masterKey_eq_ok_iff hs hb).1 h
      exact ⟨l, key, hl⟩
    · intro h
      obtain ⟨key, hkey⟩ := Option.ne_none_iff_exists'.1
        fun hfind => (firstOpened?_eq_none_iff (x := x) hb).1 hfind h
      exact ⟨key, masterKey_of_firstOpened hs hb hkey⟩
    · intro h
      refine ⟨hnone h, fun l => exists_error_of_not_opens hs hb fun key hl => ?_⟩
      exact h ⟨l, key, hl⟩

/-- A payload with the nonce of its boxes cut off, which is none that the cipher takes. -/
def withoutRecipientNonce (p : Payload) : Payload := { p with recipientNonce := ⟨[]⟩ }

theorem not_opensFirst_withoutRecipientNonce (pair : KeyPair) :
    ¬∃ l key, (nodeEnclave pair).OpensFirst (withoutRecipientNonce p) l key := by
  rintro ⟨l, key, _, _, _, _, _, _, _, hopen⟩
  rw [encryptor_nodeEnclave] at hopen
  cases hopen

/-- The sender and the receiver of a message; of the same payload without the nonce of its boxes the
receiver gets nothing. -/
theorem roles_agree_node : ∃ p,
    ((nodeEnclave senderPair).encrypt [1, 2, 3] senderPair.publicKey [receiverPair.publicKey]
      plainMetadata).result {} = .ok p ∧
    (nodeEnclave senderPair).decrypt p none = .ok [1, 2, 3] ∧
    (∃ key, (nodeEnclave receiverPair).masterKey p = .ok key ∧
      (nodeEnclave receiverPair).FirstToOpen p receiverPair.publicKey key ∧
      (nodeEnclave receiverPair).decrypt p (some receiverPair.publicKey) = .ok [1, 2, 3]) ∧
    (nodeEnclave receiverPair).masterKey (withoutRecipientNonce p) =
      .error (.openFailure "unable to decrypt master key") ∧
    ∀ l, ∃ e, (nodeEnclave receiverPair).decrypt (withoutRecipientNonce p) (some l) =
      .error e := by
  obtain ⟨p, hp⟩ := exists_encrypt_node [1, 2, 3] {} 1
  obtain ⟨hsealed, hsender, _, hlength⟩ := sealed_of_encrypt (Draws.counting_fit 0) hp
  have hboxes : p.boxes ≠ [] := by
    intro hnil
    rw [hnil] at hlength
    cases hlength
  have hs : (nodeEnclave senderPair).keys.isManaged p.sender = true :=
    isManaged_nodeEnclave_iff.2 hsender
  have hr : (nodeEnclave receiverPair).keys.isManaged p.sender = false := by
    rw [hsender]
    decide
  obtain ⟨hskey, hrkey⟩ := masterKey_node hp
  have htext := openedBy_nodeEnclave senderPair senderPair _ _ _ _ hsealed.nonce_length
    hsealed.cipherText
  obtain ⟨_, hfound, hread, _⟩ := (roles_agree hboxes).2 hr
  obtain ⟨l, hl⟩ := (hfound _).1 hrkey
  obtain rfl : l = receiverPair.publicKey := List.mem_singleton.1 hl.1.mem_publicKeys
  obtain ⟨_, _, _, hnothing⟩ := (roles_agree (p := withoutRecipientNonce p) hboxes).2 hr
  refine ⟨p, hp, ?_, ⟨_, hrkey, hl, ?_⟩, hnothing (not_opensFirst_withoutRecipientNonce _)⟩
  · rw [((roles_agree hboxes).1 hs none).1 _ hskey]
    exact htext
  · rw [hread _ _ hl.1]
    exact htext

end SealedTx.Enclave
