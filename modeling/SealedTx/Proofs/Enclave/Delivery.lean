import SealedTx.Proofs.Codec.Detect
import SealedTx.Proofs.Enclave.Decrypt

/-!
# Delivery

A message that was encrypted reaches each of its recipients, in either format (`delivers`), and
nobody else (`opens_only_addressed`).

Both follow from what holds of a sealed payload and of all views of it. In a view the first
recipient is the one that it was made for, so it is that one who reads it; in the payload itself
the first recipient is the first one that the sender named.

What is assumed of ciphers and keys stands in the hypotheses: the nonces drawn have the length that
the cipher takes (`Draws.Fit`), one side opens what the other sealed (`Encryptor.OpenedBy`), and
both get the same shared key (`AgreesWith`). That nobody else opens a box rests on boxes and keys
being kept apart besides (`Separated`), as they are for a node that keeps the keys of two recipients
(`separated_twoKeyEnclave`).
-/

namespace SealedTx.Enclave

open Outcome
open Fields (lengthLimit)

/-! ## Nodes to try it with -/

/-- The pair of the node that sends. -/
def senderPair : KeyPair where
  publicKey := ⟨[164, 224, 146, 146, 182, 81, 194, 120, 185, 119, 44, 86, 159, 95, 169, 187,
    19, 217, 6, 180, 106, 182, 140, 157, 249, 220, 43, 68, 9, 248, 162, 9], rfl⟩
  privateKey := ⟨List.replicate keySize 1, rfl⟩

/-- The pair of the node that receives. -/
def receiverPair : KeyPair where
  publicKey := ⟨[206, 141, 58, 209, 204, 182, 51, 236, 123, 112, 193, 120, 20, 165, 199, 110,
    205, 2, 150, 133, 5, 13, 52, 71, 69, 186, 5, 135, 14, 88, 125, 89], rfl⟩
  privateKey := ⟨List.replicate keySize 2, rfl⟩

/-- A node's enclave that keeps one pair. -/
def nodeEnclave (pair : KeyPair) : Enclave where
  encryptor := .standard
  keys := {
    defaultKey := pair.publicKey
    pairs := .ofList [(pair.publicKey, pair.privateKey)]
    forwarding := .empty }
  draws := .counting 0

/-- The metadata that asks for nothing. -/
def plainMetadata : Metadata where
  mode := .standardPrivate
  affected := .empty
  execHash := []
  mandatory := .empty
  groupId := none
  admitted := by
    unfold PrivacyMode.Admits
    decide

theorem isManaged_nodeEnclave_iff {pair : KeyPair} {k : PublicKey} :
    (nodeEnclave pair).keys.isManaged k = true ↔ k = pair.publicKey := by
  rw [KeyTable.isManaged_iff]
  exact List.mem_singleton

theorem privateKey_nodeEnclave (pair : KeyPair) :
    (nodeEnclave pair).keys.privateKey pair.publicKey = .ok pair.privateKey := by
  simp [KeyTable.privateKey, nodeEnclave, SortedMap.get?, SortedMap.ofList, SortedMap.insert,
    SortedMap.insertEntry, SortedMap.empty]

theorem encryptor_nodeEnclave (pair : KeyPair) : (nodeEnclave pair).encryptor = .standard := rfl

theorem openedBy_of_standard {x y : Enclave} (hx : x.encryptor = .standard)
    (hy : y.encryptor = .standard) : x.encryptor.OpenedBy y.encryptor := by
  rw [hx, hy]
  exact Encryptor.standard_openedBy

theorem openedBy_nodeEnclave (a b : KeyPair) :
    (nodeEnclave a).encryptor.OpenedBy (nodeEnclave b).encryptor :=
  openedBy_of_standard (encryptor_nodeEnclave a) (encryptor_nodeEnclave b)

theorem seals_nodeEnclave (pair : KeyPair) : (nodeEnclave pair).encryptor.Seals := by
  rw [encryptor_nodeEnclave]
  exact Encryptor.standard_seals

theorem sharedKey_nodeEnclave (pair : KeyPair) (other : PublicKey) :
    (nodeEnclave pair).sharedKey pair.publicKey other =
      Encryptor.standard.sharedKey other pair.privateKey := by
  rw [sharedKey, privateKey_nodeEnclave, ok_bind, encryptor_nodeEnclave]

theorem sharesKey_senderPair : Encryptor.SharesKey senderPair senderPair :=
  Encryptor.sharesKey_of_agree rfl (by decide +kernel)

/-- The two nodes share a key. -/
theorem sharesKey_receiverPair : Encryptor.SharesKey senderPair receiverPair :=
  Encryptor.sharesKey_of_agree (by decide +kernel) (by decide +kernel)

/-- Enclaves agree on the shared key of two pairs that they keep if the owners of these do. -/
theorem agreesWith_of_sharesKey {x y : Enclave} {p q : KeyPair} (hx : x.encryptor = .standard)
    (hy : y.encryptor = .standard) (hp : x.keys.privateKey p.publicKey = .ok p.privateKey)
    (hq : y.keys.privateKey q.publicKey = .ok q.privateKey) (h : Encryptor.SharesKey p q) :
    x.AgreesWith y p.publicKey q.publicKey := by
  intro ps pr hps hpr
  obtain rfl := Except.ok.inj (hp.symm.trans hps)
  obtain rfl := Except.ok.inj (hq.symm.trans hpr)
  obtain ⟨shared, hs, hr⟩ := h
  rw [hx, hy, hs, hr]

theorem agreesWith_nodeEnclave : (nodeEnclave senderPair).AgreesWith (nodeEnclave receiverPair)
    senderPair.publicKey receiverPair.publicKey :=
  agreesWith_of_sharesKey (encryptor_nodeEnclave _) (encryptor_nodeEnclave _)
    (privateKey_nodeEnclave _) (privateKey_nodeEnclave _) sharesKey_receiverPair

/-- The enclave of a node finds the key that its pair shares with another one. -/
theorem exists_sharedKey_of_sharesKey {p q : KeyPair} (h : Encryptor.SharesKey p q) :
    ∃ shared, (nodeEnclave p).sharedKey p.publicKey q.publicKey = .ok shared := by
  obtain ⟨shared, hp, _⟩ := h
  exact ⟨shared, (sharedKey_nodeEnclave _ _).trans hp⟩

/-- What the encryptor of nodes makes of a message that is not too long can be written, if what the
metadata asks for can. -/
theorem sized_of_encrypt {x : Enclave} {m : Bytes} {s : PublicKey} {rs : List PublicKey}
    {md : Metadata} {l : Ledger} {p : Payload} (h : (x.encrypt m s rs md).result l = .ok p)
    (hx : x.encryptor = .standard) (hfit : x.draws.Fit) (haffected : md.affected = .empty)
    (hmd : ({ execHash := md.execHash, mandatory := md.mandatory,
              groupId := nonemptyGroupId md.groupId } : Contents).Sized)
    (hm : m.length + Aead.tagSize < lengthLimit) (hrs : rs.length < lengthLimit) : p.Sized := by
  obtain ⟨c, boxes, hashes, hc, hboxes, hhashes, _, hp⟩ := of_encrypt h
  rw [haffected] at hhashes
  obtain rfl : [] = hashes := Except.ok.inj hhashes
  rw [hx] at hc
  have hbox : ∀ b ∈ boxes, b.bytes.length < lengthLimit := by
    intro b hb
    obtain ⟨i, hi⟩ := List.mem_iff_getElem?.1 hb
    obtain ⟨r, _, hr⟩ := exists_of_mapM_eq_ok hboxes hi
    obtain ⟨shared, _, hseal⟩ := boxFor_eq_ok_iff.1 hr
    rw [hx] at hseal
    rw [Encryptor.length_of_standard_sealBytes (hfit _) hseal, Key.length_eq]
    decide
  have hnonce : nonceSize < lengthLimit := by decide
  rw [hp]
  exact { hmd with
    cipherText := by rwa [Encryptor.length_of_standard_sealBytes (hfit _) hc]
    nonce := by rwa [hfit]
    boxes := by rwa [length_of_mapM_eq_ok hboxes]
    box := hbox
    recipientNonce := by rwa [hfit]
    recipients := hrs }

theorem sized_of_nodeEnclave {m : Bytes} {rs : List PublicKey} {l : Ledger} {p : Payload}
    (h : ((nodeEnclave senderPair).encrypt m senderPair.publicKey rs plainMetadata).result l =
      .ok p) (hm : m.length + Aead.tagSize < lengthLimit) (hrs : rs.length < lengthLimit) :
    p.Sized :=
  sized_of_encrypt h rfl (Draws.counting_fit 0) rfl (by decide) hm hrs

/-- The sending node shares a key with itself and with the receiving one. -/
theorem exists_sharedKey_senderPair {r : PublicKey}
    (hr : r = senderPair.publicKey ∨ r = receiverPair.publicKey) :
    ∃ shared, (nodeEnclave senderPair).sharedKey senderPair.publicKey r = .ok shared := by
  rcases hr with rfl | rfl
  · exact exists_sharedKey_of_sharesKey sharesKey_senderPair
  · exact exists_sharedKey_of_sharesKey sharesKey_receiverPair

/-- The sending node encrypts every message for the two nodes, in any order and however often they
are named, if it finds the master keys of the transactions that the message affects. -/
theorem exists_encrypt_senderPair {rs : List PublicKey}
    (hrs : ∀ r ∈ rs, r = senderPair.publicKey ∨ r = receiverPair.publicKey) (md : Metadata)
    (hmd : ∀ e ∈ md.affected.entries, ∃ key, (nodeEnclave senderPair).masterKey e.2 = .ok key)
    (m : Bytes) (l : Ledger) : ∃ p,
    ((nodeEnclave senderPair).encrypt m senderPair.publicKey rs md).result l = .ok p :=
  exists_encrypt (seals_nodeEnclave _) (Draws.counting_fit 0) (isManaged_nodeEnclave_iff.2 rfl)
    (fun r hr => exists_sharedKey_senderPair (hrs r hr)) hmd m l

/-- The sending node addresses every message to the receiving one, if it finds the master keys of
the transactions that the message affects. -/
theorem exists_encrypt_affecting_node {md : Metadata}
    (hmd : ∀ e ∈ md.affected.entries, ∃ key, (nodeEnclave senderPair).masterKey e.2 = .ok key)
    (m : Bytes) (l : Ledger) (n : Nat) : ∃ p,
    ((nodeEnclave senderPair).encrypt m senderPair.publicKey
      (List.replicate n receiverPair.publicKey) md).result l = .ok p :=
  exists_encrypt_senderPair (fun _ hr => .inr (List.eq_of_mem_replicate hr)) md hmd m l

theorem exists_encrypt_node (m : Bytes) (l : Ledger) (n : Nat) : ∃ p,
    ((nodeEnclave senderPair).encrypt m senderPair.publicKey
      (List.replicate n receiverPair.publicKey) plainMetadata).result l = .ok p :=
  exists_encrypt_affecting_node (fun e he => by cases he) m l n

/-! ## A node with two keys -/

/-- The pair that a node keeps besides the receiver's. -/
def otherPair : KeyPair where
  publicKey := ⟨[93, 254, 221, 59, 107, 212, 127, 111, 162, 142, 225, 93, 150, 157, 91, 176,
    234, 83, 119, 77, 72, 139, 218, 249, 223, 28, 110, 1, 36, 179, 239, 34], rfl⟩
  privateKey := ⟨List.replicate keySize 3, rfl⟩

/-- An enclave that keeps the receiver's pair and the other one. -/
def twoKeyEnclave : Enclave :=
  { nodeEnclave receiverPair with
    keys := {
      defaultKey := receiverPair.publicKey
      pairs := .ofList [(receiverPair.publicKey, receiverPair.privateKey),
        (otherPair.publicKey, otherPair.privateKey)]
      forwarding := .empty } }

theorem encryptor_twoKeyEnclave : twoKeyEnclave.encryptor = .standard := rfl

theorem openedBy_twoKeyEnclave :
    (nodeEnclave senderPair).encryptor.OpenedBy twoKeyEnclave.encryptor :=
  openedBy_of_standard (encryptor_nodeEnclave _) encryptor_twoKeyEnclave

theorem isManaged_twoKeyEnclave_iff {k : PublicKey} :
    twoKeyEnclave.keys.isManaged k = true ↔
      k = receiverPair.publicKey ∨ k = otherPair.publicKey := by
  rw [KeyTable.isManaged_iff]
  exact SortedMap.mem_keys_ofList.trans (by simp)

theorem sharesKey_otherPair : Encryptor.SharesKey senderPair otherPair :=
  Encryptor.sharesKey_of_agree (by decide +kernel) (by decide +kernel)

theorem agreesWith_twoKeyEnclave {k : PublicKey} (hk : twoKeyEnclave.keys.isManaged k = true) :
    (nodeEnclave senderPair).AgreesWith twoKeyEnclave senderPair.publicKey k := by
  rcases isManaged_twoKeyEnclave_iff.1 hk with rfl | rfl
  · exact agreesWith_of_sharesKey (encryptor_nodeEnclave _) encryptor_twoKeyEnclave
      (privateKey_nodeEnclave _) (by decide) sharesKey_receiverPair
  · exact agreesWith_of_sharesKey (encryptor_nodeEnclave _) encryptor_twoKeyEnclave
      (privateKey_nodeEnclave _) (by decide) sharesKey_otherPair

/-- The sending node addresses every message to both keys. -/
theorem exists_encrypt_twoKeyEnclave (m : Bytes) (l : Ledger) : ∃ p,
    ((nodeEnclave senderPair).encrypt m senderPair.publicKey
      [receiverPair.publicKey, otherPair.publicKey] plainMetadata).result l = .ok p := by
  have hshared : ∀ r ∈ [receiverPair.publicKey, otherPair.publicKey],
      ∃ shared, (nodeEnclave senderPair).sharedKey senderPair.publicKey r = .ok shared := by
    intro r hr
    rcases List.mem_pair.1 hr with rfl | rfl
    · exact exists_sharedKey_of_sharesKey sharesKey_receiverPair
    · exact exists_sharedKey_of_sharesKey sharesKey_otherPair
  have haffected : ∀ e ∈ plainMetadata.affected.entries,
      ∃ key, (nodeEnclave senderPair).masterKey e.2 = .ok key := fun e he => by cases he
  exact exists_encrypt (seals_nodeEnclave _) (Draws.counting_fit 0)
    (isManaged_nodeEnclave_iff.2 rfl) hshared haffected m l

/-- The box for either key does not open under the other one. -/
theorem openAcross_twoKeyEnclave :
    (nodeEnclave senderPair).openAcross twoKeyEnclave ((Draws.counting 0).masterKey 0)
        senderPair.publicKey ((Draws.counting 0).nonce 2) receiverPair.publicKey
        otherPair.publicKey = .error (.openFailure "authentication failed") ∧
      (nodeEnclave senderPair).openAcross twoKeyEnclave ((Draws.counting 0).masterKey 0)
        senderPair.publicKey ((Draws.counting 0).nonce 2) otherPair.publicKey
        receiverPair.publicKey = .error (.openFailure "authentication failed") := by
  decide +kernel

/-- The first message of the sender to both keys of a node is kept apart for it. -/
theorem separated_twoKeyEnclave {m : Bytes} {md : Metadata} {p : Payload}
    (h : ((nodeEnclave senderPair).encrypt m senderPair.publicKey
      [receiverPair.publicKey, otherPair.publicKey] md).result {} = .ok p) :
    (nodeEnclave senderPair).Separated twoKeyEnclave p := by
  obtain ⟨hsealed, hsender, hrecipients, hlength⟩ := sealed_of_encrypt (Draws.counting_fit 0) h
  have hnonce : p.recipientNonce = (Draws.counting 0).nonce 2 := by
    obtain ⟨_, _, _, _, _, _, _, hp⟩ := of_encrypt h
    rw [hp]
    rfl
  have hkeys : ∀ k, k ∈ p.recipients ∨ twoKeyEnclave.keys.isManaged k = true →
      k = receiverPair.publicKey ∨ k = otherPair.publicKey := by
    rintro k (hk | hk)
    · rw [hrecipients] at hk
      simpa using hk
    · exact isManaged_twoKeyEnclave_iff.1 hk
  refine hsealed.separated openedBy_twoKeyEnclave (by rw [hlength, hrecipients]) (fun k hk => ?_)
    fun r hr k hk hne b hopen => ?_
  · rw [hsender]
    exact agreesWith_twoKeyEnclave hk
  · rw [hsender, hnonce] at hopen
    -- the recipient of a box and the key that is tried are one of the two each
    rcases hkeys r (.inl hr) with rfl | rfl <;> rcases hkeys k hk with rfl | rfl
    · exact hne rfl
    · exact nomatch openAcross_twoKeyEnclave.1.symm.trans hopen
    · exact nomatch openAcross_twoKeyEnclave.2.symm.trans hopen
    · exact hne rfl

/-! ## Delivery -/

/-- **A message is delivered**: each recipient's view of it can be sent in either format, and is
read by the recipient, on any enclave that keeps the recipient's key and not the sender's. -/
theorem delivers {x y : Enclave} {m : Bytes} {s r : PublicKey} {rs : List PublicKey}
    {md : Metadata} {l : Ledger} {p : Payload}
    (h : (x.encrypt m s rs md).result l = .ok p) (hfit : x.draws.Fit)
    (hopens : x.encryptor.OpenedBy y.encryptor) (hsized : p.Sized) (hr : r ∈ rs)
    (hs : y.keys.isManaged s = false) (hmanaged : y.keys.isManaged r = true)
    (hagree : x.AgreesWith y s r) (c : Codec) :
    ∃ v q, p.forRecipient r = .ok v ∧ Codec.decodeAny (c.encode v) = .ok q ∧
      y.decrypt q (some r) = .ok m := by
  obtain ⟨hsealed, rfl, rfl, hlength⟩ := sealed_of_encrypt hfit h
  obtain ⟨v, hv⟩ := Payload.exists_forRecipient hr hlength
  obtain ⟨i, box, _, _, rfl⟩ := Payload.forRecipient_eq_ok_iff.1 hv
  have hdecode := Codec.decodeAny_encode c (Payload.sized_of_forRecipient hsized hv)
  refine ⟨_, _, hv, hdecode, ?_⟩
  exact decrypt_first hopens (hsealed.of_forRecipient hv) hs rfl (p.head?_viewKeys r) hmanaged
    hagree

/-- A message from one node to another, in either format. -/
theorem delivers_node : ∃ p,
    ((nodeEnclave senderPair).encrypt [1, 2, 3] senderPair.publicKey [receiverPair.publicKey]
      plainMetadata).result {} = .ok p ∧
    ∀ c : Codec, ∃ v q, p.forRecipient receiverPair.publicKey = .ok v ∧
      Codec.decodeAny (c.encode v) = .ok q ∧
      (nodeEnclave receiverPair).decrypt q (some receiverPair.publicKey) = .ok [1, 2, 3] := by
  have hs : (nodeEnclave receiverPair).keys.isManaged senderPair.publicKey = false := by decide
  obtain ⟨p, hp⟩ := exists_encrypt_node [1, 2, 3] {} 1
  refine ⟨p, hp, fun c => ?_⟩
  exact delivers hp (Draws.counting_fit 0) (openedBy_nodeEnclave _ _)
    (sized_of_nodeEnclave hp (by decide) (by decide)) (List.mem_singleton.2 rfl) hs
    (isManaged_nodeEnclave_iff.2 rfl) agreesWith_nodeEnclave c

/-! ## Nobody else -/

/-- **Only the addressed recipient opens**: an enclave without the sender's key reads the payload
itself with the key of the first recipient and a view with the key of the recipient that the view
is for, if it keeps that key, and with no other. It then finds the master key that was drawn, among
whatever other keys it has; else it finds none. -/
theorem opens_only_addressed {x y : Enclave} {m : Bytes} {s : PublicKey} {rs : List PublicKey}
    {md : Metadata} {l : Ledger} {p : Payload}
    (h : (x.encrypt m s rs md).result l = .ok p) (hfit : x.draws.Fit)
    (hopens : x.encryptor.OpenedBy y.encryptor) (hapart : x.Separated y p)
    (hs : y.keys.isManaged s = false) :
    (∀ k b, y.decrypt p (some k) = .ok b ↔
      rs.head? = some k ∧ y.keys.isManaged k = true ∧ b = m) ∧
    (y.masterKey p = rs.head?.elim
      (.error (.malformedPayload "an encoded payload should have at least one recipient box"))
      fun r => if y.keys.isManaged r = true then .ok (x.draws.masterKey l.drawn)
        else .error (.openFailure "unable to decrypt master key")) ∧
    ∀ r ∈ rs, ∃ v, p.forRecipient r = .ok v ∧
      (∀ k b, y.decrypt v (some k) = .ok b ↔ k = r ∧ y.keys.isManaged k = true ∧ b = m) ∧
      y.masterKey v = if y.keys.isManaged r = true then .ok (x.draws.masterKey l.drawn)
        else .error (.openFailure "unable to decrypt master key") := by
  obtain ⟨hsealed, rfl, rfl, hlength⟩ := sealed_of_encrypt hfit h
  have hview : ∀ r ∈ p.recipients, ∃ v, p.forRecipient r = .ok v ∧
      (∀ k b, y.decrypt v (some k) = .ok b ↔ k = r ∧ y.keys.isManaged k = true ∧ b = m) ∧
      y.masterKey v = if y.keys.isManaged r = true then .ok (x.draws.masterKey l.drawn)
        else .error (.openFailure "unable to decrypt master key") := by
    intro r hr
    obtain ⟨v, hv⟩ := Payload.exists_forRecipient hr hlength
    have hsealedv := hsealed.of_forRecipient hv
    have hapartv := hapart.of_forRecipient hv
    obtain ⟨i, box, _, _, rfl⟩ := Payload.forRecipient_eq_ok_iff.1 hv
    have hhead : (p.viewKeys r).head? = some r := p.head?_viewKeys r
    refine ⟨_, hv, fun k b => ?_, ?_⟩
    · exact decrypt_eq_ok_iff hopens hsealedv hapartv hs rfl hhead
    · exact masterKey_eq hopens hsealedv hapartv hs rfl hhead
  -- the payload itself has a first box exactly if it has a first recipient
  cases hboxes : p.boxes with
  | nil =>
    have hrs : p.recipients = [] := by
      rw [hboxes] at hlength
      exact List.eq_nil_of_length_eq_zero hlength.symm
    have hdecrypt : ∀ k, y.decrypt p (some k) =
        .error (.missingRecipientData "payload has no recipient box") := by
      intro k
      rw [decrypt, hboxes]
      rfl
    refine ⟨fun k b => ?_, ?_, hview⟩
    · rw [hdecrypt, hrs]
      constructor
      · intro h
        cases h
      · rintro ⟨h, _⟩
        cases h
    · rw [masterKey, hboxes, hrs]
      rfl
  | cons box rest =>
    obtain ⟨r, hr, _⟩ := hsealed.boxes 0 box (by rw [hboxes]; rfl)
    rw [← List.head?_eq_getElem?] at hr
    refine ⟨fun k b => ?_, ?_, hview⟩
    · rw [decrypt_eq_ok_iff hopens hsealed hapart hs hboxes hr, hr, Option.some_inj, eq_comm]
    · rw [masterKey_eq hopens hsealed hapart hs hboxes hr, hr, Option.elim_some]

/-- A payload for both keys of a node: it opens with the first recipient's, and the other one's view
with the other one's. -/
theorem opens_only_addressed_node : ∃ p v,
    ((nodeEnclave senderPair).encrypt [1, 2, 3] senderPair.publicKey
      [receiverPair.publicKey, otherPair.publicKey] plainMetadata).result {} = .ok p ∧
    p.forRecipient otherPair.publicKey = .ok v ∧
    twoKeyEnclave.decrypt p (some receiverPair.publicKey) = .ok [1, 2, 3] ∧
    (∀ b, twoKeyEnclave.decrypt p (some otherPair.publicKey) ≠ .ok b) ∧
    (∀ b, twoKeyEnclave.decrypt p (some senderPair.publicKey) ≠ .ok b) ∧
    twoKeyEnclave.masterKey p = .ok ((Draws.counting 0).masterKey 0) ∧
    twoKeyEnclave.decrypt v (some otherPair.publicKey) = .ok [1, 2, 3] ∧
    (∀ b, twoKeyEnclave.decrypt v (some receiverPair.publicKey) ≠ .ok b) ∧
    twoKeyEnclave.masterKey v = .ok ((Draws.counting 0).masterKey 0) := by
  have hs : twoKeyEnclave.keys.isManaged senderPair.publicKey = false := by decide
  have hreceiver : twoKeyEnclave.keys.isManaged receiverPair.publicKey = true :=
    isManaged_twoKeyEnclave_iff.2 (.inl rfl)
  have hother : twoKeyEnclave.keys.isManaged otherPair.publicKey = true :=
    isManaged_twoKeyEnclave_iff.2 (.inr rfl)
  have hne : receiverPair.publicKey ≠ otherPair.publicKey := by decide
  obtain ⟨p, hp⟩ := exists_encrypt_twoKeyEnclave [1, 2, 3] {}
  obtain ⟨hdecrypt, hmaster, hviews⟩ := opens_only_addressed hp (Draws.counting_fit 0)
    openedBy_twoKeyEnclave (separated_twoKeyEnclave hp) hs
  obtain ⟨v, hv, hdecryptv, hmasterv⟩ := hviews otherPair.publicKey (by simp)
  rw [List.head?_cons, Option.elim_some, if_pos hreceiver] at hmaster
  rw [if_pos hother] at hmasterv
  refine ⟨p, v, hp, hv, (hdecrypt _ _).2 ⟨rfl, hreceiver, rfl⟩, fun b hb => ?_, fun b hb => ?_,
    hmaster, (hdecryptv _ _).2 ⟨rfl, hother, rfl⟩, fun b hb => ?_, hmasterv⟩
  · exact hne (Option.some.inj ((hdecrypt _ b).1 hb).1)
  · have hkey := ((hdecrypt _ b).1 hb).2.1
    rw [hs] at hkey
    exact nomatch hkey
  · exact hne ((hdecryptv _ b).1 hb).1

end SealedTx.Enclave
