import SealedTx.Proofs.Enclave.Disclosure

/-!
# The sender's own copy

Whoever sent a transaction reads it back, and needs no key of a recipient for it: the key that a
caller names is not looked at, nor are the other keys that the enclave keeps.

The sender opens the first box with the key of the first recipient. That these two belong together
is part of being sealed, and a view of a sealed payload is sealed again (`Sealed.of_forRecipient`),
also where the mode keeps the other recipients behind the one that the view is for. So one lemma
about sealed payloads (`Sealed.readBackBy`) answers for the payload and for all of its views, and
the round trips of both formats carry it over to what was sent.
-/

namespace SealedTx.Enclave

variable {x : Enclave} {key : SymmetricKey} {m : Bytes} {s : PublicKey} {rs : List PublicKey}
  {md : Metadata} {l : Ledger} {p : Payload}

/-- Whether an enclave reads a message from a payload whatever key the caller names, and gets the
master key of it. -/
structure ReadBackBy (x : Enclave) (key : SymmetricKey) (m : Bytes) (p : Payload) : Prop where
  decrypt : ∀ localKey : Option PublicKey, x.decrypt p localKey = .ok m
  masterKey : x.masterKey p = .ok key

/-- For the sender of a payload the caller's key is not looked at. -/
theorem decrypt_of_sender {box : RecipientBox} {boxes : List RecipientBox} {first : PublicKey}
    {others : List PublicKey} (hs : x.keys.isManaged p.sender = true)
    (hboxes : p.boxes = box :: boxes) (hrecipients : p.recipients = first :: others)
    (localKey : Option PublicKey) :
    x.decrypt p localKey = (do
      let key ← x.openMasterKey box.bytes p.recipientNonce first p.sender
      x.encryptor.openBytes p.cipherText p.nonce key) := by
  simp only [Enclave.decrypt, hboxes, hs, if_true, openAsSender, hrecipients]

/-- **The sender reads back** whatever it sealed for somebody. -/
theorem Sealed.readBackBy (hopens : x.encryptor.OpenedBy x.encryptor) (h : x.Sealed key m p)
    (hb : p.boxes ≠ []) : x.ReadBackBy key m p := by
  obtain ⟨box, boxes, first, others, hboxes, hrecipients, hopen⟩ := h.openMasterKey_first hopens hb
  have hs : x.keys.isManaged p.sender = true := isManaged_of_openMasterKey hopen
  constructor
  case decrypt =>
    intro localKey
    rw [decrypt_of_sender hs hboxes hrecipients, hopen]
    exact hopens _ _ _ _ h.nonce_length h.cipherText
  case masterKey => exact h.masterKey_of_sender hopens hb

theorem ReadBackBy.of_forRecipient {v : Payload} {r : PublicKey}
    (hopens : x.encryptor.OpenedBy x.encryptor) (h : x.Sealed key m p)
    (hv : p.forRecipient r = .ok v) : x.ReadBackBy key m v := by
  -- a view has the one box that it was made with
  refine (h.of_forRecipient hv).readBackBy hopens ?_
  obtain ⟨i, box, _, _, rfl⟩ := Payload.forRecipient_eq_ok_iff.1 hv
  exact List.cons_ne_nil box []

/-- **The sender reads its transaction back** from the payload and from the view of each recipient,
and from what either format makes of them, whatever key the caller names and whatever other keys
the enclave keeps; the master key that it finds is the one that was drawn. -/
theorem sender_reads_back (h : (x.encrypt m s rs md).result l = .ok p) (hfit : x.draws.Fit)
    (hopens : x.encryptor.OpenedBy x.encryptor) (hrs : rs ≠ []) (hsized : p.Sized) :
    (∀ r ∈ rs, ∃ v, p.forRecipient r = .ok v) ∧
    ∀ v, (v = p ∨ ∃ r ∈ rs, p.forRecipient r = .ok v) →
      x.ReadBackBy (x.draws.masterKey l.drawn) m v ∧
      ∀ c : Codec, ∃ q, Codec.decodeAny (c.encode v) = .ok q ∧
        x.ReadBackBy (x.draws.masterKey l.drawn) m q := by
  obtain ⟨hsealed, _, rfl, hlength⟩ := sealed_of_encrypt hfit h
  have hboxes : p.boxes ≠ [] := by
    intro hnil
    rw [hnil] at hlength
    exact hrs (List.eq_nil_of_length_eq_zero hlength.symm)
  refine ⟨fun r hr => Payload.exists_forRecipient hr hlength, fun v hv => ?_⟩
  have hread : x.ReadBackBy (x.draws.masterKey l.drawn) m v := by
    rcases hv with rfl | ⟨r, _, hv⟩
    · exact hsealed.readBackBy hopens hboxes
    · exact .of_forRecipient hopens hsealed hv
  have hsizedv : v.Sized := by
    rcases hv with rfl | ⟨r, _, hv⟩
    · exact hsized
    · exact Payload.sized_of_forRecipient hsized hv
  exact ⟨hread, fun c => ⟨v, Codec.decodeAny_encode c hsizedv, hread⟩⟩

/-! ## A node that is on both sides -/

/-- An enclave that keeps the sender's key and the receiver's. -/
def jointEnclave : Enclave :=
  { nodeEnclave senderPair with
    keys := {
      defaultKey := senderPair.publicKey
      pairs := .ofList [(senderPair.publicKey, senderPair.privateKey),
        (receiverPair.publicKey, receiverPair.privateKey)]
      forwarding := .empty } }

theorem encryptor_jointEnclave : jointEnclave.encryptor = .standard := rfl

theorem sharedKey_jointEnclave (other : PublicKey) :
    jointEnclave.sharedKey senderPair.publicKey other =
      (nodeEnclave senderPair).sharedKey senderPair.publicKey other := by
  have hkey : jointEnclave.keys.privateKey senderPair.publicKey = .ok senderPair.privateKey := by
    decide
  unfold sharedKey
  rw [hkey, privateKey_nodeEnclave]
  rfl

/-- A payload that names the receiver before and behind the sender, in the mode that keeps all
recipients in a view, on an enclave that could open it as the receiver too. -/
theorem sender_reads_back_joint : ∃ p v,
    (jointEnclave.encrypt [1, 2, 3] senderPair.publicKey
      [receiverPair.publicKey, senderPair.publicKey, receiverPair.publicKey]
      validatingMetadata).result {} = .ok p ∧
    jointEnclave.keys.isManaged receiverPair.publicKey = true ∧
    p.forRecipient senderPair.publicKey = .ok v ∧
    jointEnclave.decrypt p none = .ok [1, 2, 3] ∧
    jointEnclave.decrypt v (some receiverPair.publicKey) = .ok [1, 2, 3] ∧
    ∀ c : Codec, ∃ q, Codec.decodeAny (c.encode v) = .ok q ∧
      jointEnclave.decrypt q (some receiverPair.publicKey) = .ok [1, 2, 3] ∧
      jointEnclave.masterKey q = .ok ((Draws.counting 0).masterKey 0) := by
  have hrs : ∀ r ∈ [receiverPair.publicKey, senderPair.publicKey, receiverPair.publicKey],
      r = senderPair.publicKey ∨ r = receiverPair.publicKey := by simp
  have hshared : ∀ r ∈ [receiverPair.publicKey, senderPair.publicKey, receiverPair.publicKey],
      ∃ shared, jointEnclave.sharedKey senderPair.publicKey r = .ok shared := by
    intro r hr
    rw [sharedKey_jointEnclave]
    exact exists_sharedKey_senderPair (hrs r hr)
  have hs : jointEnclave.keys.isManaged senderPair.publicKey = true := by decide
  have haffected : ∀ e ∈ validatingMetadata.affected.entries,
      ∃ key, jointEnclave.masterKey e.2 = .ok key := fun e he => by cases he
  have hseals : jointEnclave.encryptor.Seals := by
    rw [encryptor_jointEnclave]
    exact Encryptor.standard_seals
  have hopens : jointEnclave.encryptor.OpenedBy jointEnclave.encryptor :=
    openedBy_of_standard encryptor_jointEnclave encryptor_jointEnclave
  have hfit : jointEnclave.draws.Fit := Draws.counting_fit 0
  obtain ⟨p, hp⟩ := exists_encrypt hseals hfit hs hshared haffected [1, 2, 3] {}
  have hsized : p.Sized :=
    sized_of_encrypt hp encryptor_jointEnclave hfit rfl (by decide) (by decide) (by decide)
  obtain ⟨hviews, hread⟩ := sender_reads_back hp hfit hopens (List.cons_ne_nil _ _) hsized
  obtain ⟨v, hv⟩ := hviews senderPair.publicKey (by simp)
  obtain ⟨hp', _⟩ := hread p (.inl rfl)
  obtain ⟨hv', hsent⟩ := hread v (.inr ⟨_, by simp, hv⟩)
  refine ⟨p, v, hp, by decide, hv, hp'.decrypt none, hv'.decrypt _, fun c => ?_⟩
  obtain ⟨q, hq, hq'⟩ := hsent c
  exact ⟨q, hq, hq'.decrypt _, hq'.masterKey⟩

end SealedTx.Enclave
