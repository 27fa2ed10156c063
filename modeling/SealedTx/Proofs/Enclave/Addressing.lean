import SealedTx.Proofs.Enclave.Delivery

/-!
# Addressing later

Who a message is for can be settled after it was sealed. A message that is staged and then addressed
comes to what encrypting it at once does, with the same draws (`staged_eq_encrypt`). A recipient who
joins later gets the box that it would have had as the last recipient from the start
(`late_recipient`), and its box can be made from the payload itself or from any view of it.

Both rest on the sender being able to take the master key back: from the box that it sealed for
itself (`rawMasterKey_eq`), or from the first box of a payload (`Sealed.newBox`). All that is
assumed of the cipher is that nonces have its length and that it opens what it sealed.
-/

namespace SealedTx

/-- The draft with one more recipient and its box. -/
def Draft.addRecipient (d : Draft) (r : PublicKey) (box : RecipientBox) : Draft :=
  { d with recipients := d.recipients ++ [r], boxes := d.boxes ++ [box] }

/-- Whether staging at one place of the draws and addressing at another one draw what an encryption
draws at a third. -/
structure Draws.Agree (d : Draws) (staged addressed encrypted : Nat) : Prop where
  masterKey : d.masterKey staged = d.masterKey encrypted
  nonce : d.nonce (staged + 1) = d.nonce (encrypted + 1)
  recipientNonce : d.nonce addressed = d.nonce (encrypted + 2)

namespace Enclave

open Outcome

variable {x : Enclave} {m : Bytes} {s : PublicKey} {rs : List PublicKey} {md : Metadata}
  {l : Ledger} {p : Payload} {raw : RawTransaction}

/-! ## Staged messages -/

/-- What a staged message is made of. -/
theorem of_encryptRaw (h : (x.encryptRaw m s).result l = .ok raw) :
    raw.sender = s ∧ raw.nonce = x.draws.nonce (l.drawn + 1) ∧
      x.encryptor.sealBytes m (x.draws.nonce (l.drawn + 1)) (x.draws.masterKey l.drawn) =
        .ok raw.cipherText ∧
      x.boxFor (x.draws.masterKey l.drawn) s (x.draws.nonce (l.drawn + 1)) s =
        .ok ⟨raw.sealedKey⟩ := by
  rw [result_encryptRaw] at h
  obtain ⟨_, _, h⟩ := bind_eq_ok_iff.1 h
  obtain ⟨c, hc, h⟩ := bind_eq_ok_iff.1 h
  obtain ⟨box, hbox, h⟩ := bind_eq_ok_iff.1 h
  cases h
  exact ⟨rfl, rfl, hc, hbox⟩

/-- **The sender takes the master key back** from what it staged. -/
theorem rawMasterKey_eq (hopens : x.encryptor.OpenedBy x.encryptor) (hfit : x.draws.Fit)
    (h : (x.encryptRaw m s).result l = .ok raw) :
    x.rawMasterKey raw = .ok (x.draws.masterKey l.drawn) := by
  obtain ⟨hs, hn, _, hbox⟩ := of_encryptRaw h
  rw [rawMasterKey, hs, hn]
  exact openMasterKey_of_boxFor hopens (hfit _) hbox rfl

/-- **A staged message** is read back, and addressing it comes to what encrypting the message at
once does, be it a payload or an error. -/
theorem staged_eq_encrypt (hopens : x.encryptor.OpenedBy x.encryptor) (hfit : x.draws.Fit)
    (h : (x.encryptRaw m s).result l = .ok raw) :
    x.decryptRaw raw = .ok m ∧
      ∀ (rs : List PublicKey) (md : Metadata) (l' l'' : Ledger),
        x.draws.Agree l.drawn l'.drawn l''.drawn →
        (x.encryptFromRaw raw rs md).result l' = (x.encrypt m s rs md).result l'' := by
  obtain ⟨hs, hn, hc, _⟩ := of_encryptRaw h
  have hkey := rawMasterKey_eq hopens hfit h
  constructor
  · rw [decryptRaw, hkey, ok_bind, hn]
    exact hopens _ _ _ _ (hfit _) hc
  · intro rs md l' l'' hdraws
    rw [result_encryptFromRaw, result_encrypt, hkey, hs, hn, hdraws.recipientNonce]
    rw [hdraws.masterKey, hdraws.nonce] at hc ⊢
    rw [hc, ok_bind, ok_bind]

/-- The sending node stages every message. -/
theorem exists_encryptRaw_node (m : Bytes) (l : Ledger) :
    ∃ raw, ((nodeEnclave senderPair).encryptRaw m senderPair.publicKey).result l = .ok raw :=
  exists_encryptRaw (seals_nodeEnclave _) (Draws.counting_fit 0) (isManaged_nodeEnclave_iff.2 rfl)
    (exists_sharedKey_senderPair (.inl rfl)) m l

/-- A message that the sending node stages first, with two draws, and addresses with the third. The
payload is the one that it makes at once. -/
theorem staged_eq_encrypt_node : ∃ raw p,
    ((nodeEnclave senderPair).encryptRaw [1, 2, 3] senderPair.publicKey).result {} = .ok raw ∧
      (nodeEnclave senderPair).decryptRaw raw = .ok [1, 2, 3] ∧
      ((nodeEnclave senderPair).encryptFromRaw raw [receiverPair.publicKey] plainMetadata).result
          { drawn := 2 } = .ok p ∧
      ((nodeEnclave senderPair).encrypt [1, 2, 3] senderPair.publicKey [receiverPair.publicKey]
          plainMetadata).result {} = .ok p := by
  obtain ⟨raw, hraw⟩ := exists_encryptRaw_node [1, 2, 3] {}
  obtain ⟨p, hp⟩ := exists_encrypt_node [1, 2, 3] {} 1
  obtain ⟨hread, haddress⟩ :=
    staged_eq_encrypt (openedBy_nodeEnclave _ _) (Draws.counting_fit 0) hraw
  exact ⟨raw, p, hraw, hread, (haddress _ _ _ _ ⟨rfl, rfl, rfl⟩).trans hp, hp⟩

/-! ## Recipients who join later -/

/-- **A box made later** is the one of the master key that the payload was sealed with. -/
theorem Sealed.newBox {key : SymmetricKey} (hopens : x.encryptor.OpenedBy x.encryptor)
    (h : x.Sealed key m p) (hb : p.boxes ≠ []) (r : PublicKey) :
    (x.newBox p r).Gives (x.boxFor key p.sender p.recipientNonce r) := by
  obtain ⟨box, boxes, first, rest, hboxes, hrest, hopen⟩ := h.openMasterKey_first hopens hb
  have hgives := gives_newBox x hrest hboxes r
  rwa [hopen] at hgives

/-- One more recipient adds its box behind the others, or its error. -/
theorem mapM_boxFor_append {key : SymmetricKey} {n : Nonce} {boxes : List RecipientBox}
    (h : rs.mapM (x.boxFor key s n) = .ok boxes) (r : PublicKey) :
    (rs ++ [r]).mapM (x.boxFor key s n) = (do return boxes ++ [← x.boxFor key s n r]) := by
  rw [List.mapM_append, h, List.mapM_cons]
  cases x.boxFor key s n r <;> rfl

/-- **An encryption for one more recipient** comes to the box of that recipient, added to the draft
of the payload for the others. -/
theorem result_encrypt_append (h : (x.encrypt m s rs md).result l = .ok p) (r : PublicKey) :
    (x.encrypt m s (rs ++ [r]) md).result l = (do
      let box ← x.boxFor (x.draws.masterKey l.drawn) s p.recipientNonce r
      (p.toDraft.addRecipient r box).build) := by
  rw [result_encrypt] at h ⊢
  obtain ⟨c, hc, h⟩ := bind_eq_ok_iff.1 h
  obtain ⟨boxes, hboxes, hassemble⟩ := bind_eq_ok_iff.1 h
  obtain ⟨pk, hpk, hboxes⟩ := bind_eq_ok_iff.1 hboxes
  obtain ⟨hashes, hhashes, hs, hp⟩ := of_assemble hassemble
  have hnonce : p.recipientNonce = x.draws.nonce (l.drawn + 2) := by rw [hp]
  rw [hc, hnonce, ok_bind, address, boxesFor, hpk, ok_bind, mapM_boxFor_append hboxes, bind_assoc]
  cases x.boxFor (x.draws.masterKey l.drawn) s (x.draws.nonce (l.drawn + 2)) r with
  | error e => rfl
  | ok box =>
    rw [ok_bind, ok_bind, pure_bind, assemble, hhashes, ok_bind]
    rw [← Draft.build_nonemptyGroupId, Draft.addRecipient, Payload.toDraft, hp, hs]

/-- **A recipient who joins later** gets a box from the payload or any view of it, the same from
all. There is one exactly if the message could have been encrypted for that recipient too, with the
same draws; the box then completes the payload to what that encryption gives, and else both fail
alike. -/
theorem late_recipient (hopens : x.encryptor.OpenedBy x.encryptor) (hfit : x.draws.Fit)
    (h : (x.encrypt m s rs md).result l = .ok p) (hrs : rs ≠ []) (r' : PublicKey) (l' : Ledger) :
    (∀ r ∈ rs, ∃ v, p.forRecipient r = .ok v ∧
      ∀ l'', (x.newBox v r').result l'' = (x.newBox p r').result l') ∧
    (∀ box, (x.newBox p r').result l' = .ok box → ∃ q,
      (x.encrypt m s (rs ++ [r']) md).result l = .ok q ∧
        (p.toDraft.addRecipient r' box).build = .ok q) ∧
    ∀ e, (x.newBox p r').result l' = .error e ↔
      (x.encrypt m s (rs ++ [r']) md).result l = .error e := by
  have happend := result_encrypt_append h r'
  obtain ⟨hsealed, rfl, rfl, hlength⟩ := sealed_of_encrypt hfit h
  have hboxes : p.boxes ≠ [] := by
    intro hb
    rw [hb] at hlength
    exact hrs (List.eq_nil_of_length_eq_zero hlength.symm)
  have hbuild : ∀ box, ∃ q, (p.toDraft.addRecipient r' box).build = .ok q := fun box =>
    ⟨_, Draft.build_of_admits rfl p.admitted⟩
  rw [happend, hsealed.newBox hopens hboxes r' l']
  refine ⟨fun r hr => ?_, fun box hbox => ?_, fun e => ?_⟩
  · obtain ⟨v, hv⟩ := Payload.exists_forRecipient hr hlength
    have hsealedv := hsealed.of_forRecipient hv
    obtain ⟨i, box, _, _, rfl⟩ := Payload.forRecipient_eq_ok_iff.1 hv
    exact ⟨_, hv, hsealedv.newBox hopens (List.cons_ne_nil _ _) r'⟩
  · obtain ⟨q, hq⟩ := hbuild box
    rw [hbox]
    exact ⟨q, hq, hq⟩
  · cases x.boxFor (x.draws.masterKey l.drawn) p.sender p.recipientNonce r' with
    | error e' => simp
    | ok box =>
      obtain ⟨q, hq⟩ := hbuild box
      simp [hq]

/-- A recipient who joins a second time, when more draws were made than the payload took. -/
theorem late_recipient_node : ∃ p box q,
    ((nodeEnclave senderPair).encrypt [1, 2, 3] senderPair.publicKey [receiverPair.publicKey]
      plainMetadata).result {} = .ok p ∧
    ((nodeEnclave senderPair).newBox p receiverPair.publicKey).result { drawn := 7 } = .ok box ∧
    ((nodeEnclave senderPair).encrypt [1, 2, 3] senderPair.publicKey
      [receiverPair.publicKey, receiverPair.publicKey] plainMetadata).result {} = .ok q ∧
    (p.toDraft.addRecipient receiverPair.publicKey box).build = .ok q := by
  obtain ⟨p, hp⟩ := exists_encrypt_node [1, 2, 3] {} 1
  obtain ⟨q, hq⟩ := exists_encrypt_node [1, 2, 3] {} 2
  obtain ⟨_, hok, herror⟩ := late_recipient (openedBy_nodeEnclave _ _) (Draws.counting_fit 0) hp
    (List.cons_ne_nil _ _) receiverPair.publicKey { drawn := 7 }
  cases hbox : ((nodeEnclave senderPair).newBox p receiverPair.publicKey).result { drawn := 7 } with
  | error e => exact nomatch hq.symm.trans ((herror e).1 hbox)
  | ok box =>
    obtain ⟨q', hq', hbuild⟩ := hok box hbox
    exact ⟨p, box, q', hp, hbox, hq', hbuild⟩

end Enclave

end SealedTx
