import SealedTx.Proofs.Enclave.Addressing

/-!
# What a view discloses

A recipient is sent its own box and, unless all recipients have to know each other, no key but its
own. That hides the others only if nothing else in its view depends on them: not on how many they
are, nor on the recipient's place among them, nor on whether it is named twice.

Two encryptions of one message with the same draws differ in their recipients and boxes alone
(`eq_withView_of_encrypt`), and the box at the first place of a recipient is made of the draws and
of the recipient (`forRecipient_of_encrypt`). Hence a recipient's views of the two differ at most in
the keys that they name (`view_hides_recipients`).
-/

namespace SealedTx.Enclave

open Outcome

variable {x : Enclave} {m : Bytes} {s r : PublicKey} {rs rs₁ rs₂ : List PublicKey} {md : Metadata}
  {l l₁ l₂ : Ledger} {p p₁ p₂ : Payload}

/-! ## Two encryptions of one message -/

/-- The box that a recipient is sent is the one made for it, whoever stands beside it. -/
theorem forRecipient_of_encrypt (h : (x.encrypt m s rs md).result l = .ok p) (hr : r ∈ rs) :
    ∃ box, x.boxFor (x.draws.masterKey l.drawn) s (x.draws.nonce (l.drawn + 2)) r = .ok box ∧
      p.forRecipient r = .ok (p.withView (p.viewKeys r) [box]) := by
  obtain ⟨c, boxes, hashes, _, hboxes, _, _, hp⟩ := of_encrypt h
  have hrecipients : p.recipients = rs := by rw [hp]
  have hpboxes : p.boxes = boxes := by rw [hp]
  have hlength : p.boxes.length = p.recipients.length := by
    rw [hpboxes, hrecipients]
    exact length_of_mapM_eq_ok hboxes
  obtain ⟨v, hv⟩ := Payload.exists_forRecipient (by rwa [hrecipients]) hlength
  obtain ⟨i, box, hi, hbox, rfl⟩ := Payload.forRecipient_eq_ok_iff.1 hv
  -- box and recipient stand at the same place, and a recipient's first place is one of its places
  rw [hpboxes] at hbox
  obtain ⟨r', hr', hboxFor⟩ := exists_of_mapM_eq_ok hboxes hbox
  have hplace : p.recipients[i]? = some r := Payload.getElem?_of_recipientIndex? hi
  rw [hrecipients, hr'] at hplace
  cases hplace
  exact ⟨box, hboxFor, hv⟩

/-- **Encryptions with the same draws** differ in their recipients and boxes alone. -/
theorem eq_withView_of_encrypt (h₁ : (x.encrypt m s rs₁ md).result l₁ = .ok p₁)
    (h₂ : (x.encrypt m s rs₂ md).result l₂ = .ok p₂)
    (hdraws : x.draws.Agree l₁.drawn (l₁.drawn + 2) l₂.drawn) :
    p₂ = p₁.withView p₂.recipients p₂.boxes := by
  obtain ⟨c₁, boxes₁, hashes₁, hc₁, _, hhashes₁, hs₁, hp₁⟩ := of_encrypt h₁
  obtain ⟨c₂, boxes₂, hashes₂, hc₂, _, hhashes₂, hs₂, hp₂⟩ := of_encrypt h₂
  have hc : c₁ = c₂ := by
    rw [hdraws.masterKey, hdraws.nonce, hc₂] at hc₁
    exact (Except.ok.inj hc₁).symm
  have hhashes : hashes₁ = hashes₂ := by
    rw [hc, hhashes₂] at hhashes₁
    exact (Except.ok.inj hhashes₁).symm
  refine Payload.ext_of_parts ?_ ?_
  · show p₂.sender = p₁.sender
    rw [hs₁, hs₂]
  · show p₂.toContents =
      { p₁.toContents with recipients := p₂.recipients, boxes := p₂.boxes }
    rw [hp₁, hp₂, hc, hhashes, hdraws.nonce, hdraws.recipientNonce]

/-! ## What one recipient sees of them -/

/-- **A view does not tell who else is addressed.** Of two encryptions with the same draws, to any
lists of recipients, a recipient of both gets views that agree in all but the keys that they name;
these begin with its own. Unless the mode has all recipients know each other, the views are the
same, and so are the bytes that are sent in either format. -/
theorem view_hides_recipients (h₁ : (x.encrypt m s rs₁ md).result l₁ = .ok p₁)
    (h₂ : (x.encrypt m s rs₂ md).result l₂ = .ok p₂)
    (hdraws : x.draws.Agree l₁.drawn (l₁.drawn + 2) l₂.drawn) (hr₁ : r ∈ rs₁) (hr₂ : r ∈ rs₂) :
    ∃ v₁ v₂, p₁.forRecipient r = .ok v₁ ∧ p₂.forRecipient r = .ok v₂ ∧
      v₂ = v₁.withView v₂.recipients v₁.boxes ∧
      v₁.recipients.head? = some r ∧ v₂.recipients.head? = some r ∧
      (md.mode ≠ .privateStateValidation → v₁ = v₂ ∧ ∀ c : Codec, c.encode v₁ = c.encode v₂) := by
  obtain ⟨box, hbox, hv₁⟩ := forRecipient_of_encrypt h₁ hr₁
  obtain ⟨box', hbox', hv₂⟩ := forRecipient_of_encrypt h₂ hr₂
  have hsame : box' = box := by
    rw [hdraws.masterKey, hdraws.recipientNonce, hbox'] at hbox
    exact Except.ok.inj hbox
  have hp := eq_withView_of_encrypt h₁ h₂ hdraws
  have hview : ∀ keys, p₂.withView keys [box'] = p₁.withView keys [box] := by
    intro keys
    rw [hsame, hp]
    rfl
  refine ⟨_, _, hv₁, hv₂, hview _, p₁.head?_viewKeys r, p₂.head?_viewKeys r, fun hmode => ?_⟩
  have hmode₁ : p₁.mode ≠ .privateStateValidation := by
    obtain ⟨_, _, _, _, _, _, _, hp₁⟩ := of_encrypt h₁
    rwa [hp₁]
  have hkeys : p₂.viewKeys r = p₁.viewKeys r := by
    have hmode₂ : p₂.mode = p₁.mode := by rw [hp]; rfl
    rw [Payload.viewKeys, Payload.viewKeys, hmode₂, if_neg hmode₁, if_neg hmode₁]
  rw [hview, hkeys]
  exact ⟨rfl, fun c => rfl⟩

/-- The metadata of a transaction whose state all recipients validate. -/
def validatingMetadata : Metadata :=
  { plainMetadata with
    mode := .privateStateValidation
    execHash := [9]
    admitted := by
      unfold PrivacyMode.Admits
      decide }

/-- The receiver alone, and the receiver named twice behind the sender, in a mode that hides the
others and in the one that does not. -/
theorem view_hides_recipients_node :
    (∃ p₁ p₂ v,
      ((nodeEnclave senderPair).encrypt [1, 2, 3] senderPair.publicKey [receiverPair.publicKey]
        plainMetadata).result {} = .ok p₁ ∧
      ((nodeEnclave senderPair).encrypt [1, 2, 3] senderPair.publicKey
        [senderPair.publicKey, receiverPair.publicKey, receiverPair.publicKey]
        plainMetadata).result {} = .ok p₂ ∧
      p₁.forRecipient receiverPair.publicKey = .ok v ∧
      p₂.forRecipient receiverPair.publicKey = .ok v) ∧
    ∃ p₁ p₂ v₁ v₂,
      ((nodeEnclave senderPair).encrypt [1, 2, 3] senderPair.publicKey [receiverPair.publicKey]
        validatingMetadata).result {} = .ok p₁ ∧
      ((nodeEnclave senderPair).encrypt [1, 2, 3] senderPair.publicKey
        [senderPair.publicKey, receiverPair.publicKey, receiverPair.publicKey]
        validatingMetadata).result {} = .ok p₂ ∧
      p₁.forRecipient receiverPair.publicKey = .ok v₁ ∧
      p₂.forRecipient receiverPair.publicKey = .ok v₂ ∧
      v₂ = v₁.withView v₂.recipients v₁.boxes := by
  have halone : ∀ r ∈ [receiverPair.publicKey],
      r = senderPair.publicKey ∨ r = receiverPair.publicKey := by simp
  have hbehind : ∀ r ∈ [senderPair.publicKey, receiverPair.publicKey, receiverPair.publicKey],
      r = senderPair.publicKey ∨ r = receiverPair.publicKey := by simp
  have hr₁ : receiverPair.publicKey ∈ [receiverPair.publicKey] := by simp
  have hr₂ : receiverPair.publicKey ∈
      [senderPair.publicKey, receiverPair.publicKey, receiverPair.publicKey] := by simp
  constructor
  · obtain ⟨p₁, hp₁⟩ := exists_encrypt_senderPair halone plainMetadata
      (fun e he => by cases he) [1, 2, 3] {}
    obtain ⟨p₂, hp₂⟩ := exists_encrypt_senderPair hbehind plainMetadata
      (fun e he => by cases he) [1, 2, 3] {}
    obtain ⟨v₁, v₂, hv₁, hv₂, _, _, _, hsame⟩ :=
      view_hides_recipients hp₁ hp₂ ⟨rfl, rfl, rfl⟩ hr₁ hr₂
    obtain ⟨rfl, _⟩ := hsame (by decide)
    exact ⟨p₁, p₂, v₁, hp₁, hp₂, hv₁, hv₂⟩
  · obtain ⟨p₁, hp₁⟩ := exists_encrypt_senderPair halone validatingMetadata
      (fun e he => by cases he) [1, 2, 3] {}
    obtain ⟨p₂, hp₂⟩ := exists_encrypt_senderPair hbehind validatingMetadata
      (fun e he => by cases he) [1, 2, 3] {}
    obtain ⟨v₁, v₂, hv₁, hv₂, hview, _, _, _⟩ :=
      view_hides_recipients hp₁ hp₂ ⟨rfl, rfl, rfl⟩ hr₁ hr₂
    exact ⟨p₁, p₂, v₁, v₂, hp₁, hp₂, hv₁, hv₂, hview⟩

end SealedTx.Enclave
