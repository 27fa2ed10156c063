import SealedTx.Proofs.Enclave.Affected

/-!
# When an encryption fails

An encryption looks for the sender's private key, goes through its recipients for the keys that the
sender shares with them, and then through the affected transactions for their master keys. Each of
these may fail, and the first that does is the error (`Fault`). Nothing else fails: sealing does not
under the nonces that are drawn, and metadata keeps the promise of its mode as a payload does, so
what was put together builds (`assemble_eq_error_iff`).

What did not fail has all that was asked for (`Copies`). The metadata may ask for an empty group id,
which is none in a payload.
-/

namespace SealedTx.Enclave

open Outcome

variable {x : Enclave} {key : SymmetricKey} {s r : PublicKey} {rs : List PublicKey} {n rn : Nonce}
  {md : Metadata} {c m : Bytes} {e : EnclaveError} {l : Ledger} {p : Payload}

/-! ## Boxes -/

/-- A box fails only if there is no shared key to seal it under. -/
theorem boxFor_eq_error_iff (hseals : x.encryptor.Seals) (hn : n.bytes.length = nonceSize) :
    x.boxFor key s n r = .error e ↔ x.sharedKey s r = .error e := by
  rw [boxFor, bind_eq_error_iff]
  constructor
  · rintro (h | ⟨shared, _, h⟩)
    · exact h
    · obtain ⟨b, hb⟩ := hseals key.bytes n shared hn
      rw [hb] at h
      cases h
  · exact .inl

/-- Boxes fail without the sender's key, and else for the first recipient that it shares no key
with. -/
theorem boxesFor_eq_error_iff (hseals : x.encryptor.Seals) (hn : n.bytes.length = nonceSize) :
    x.boxesFor key s n rs = .error e ↔ x.keys.isManaged s = false ∧ e = .keyNotFound s ∨
      x.keys.isManaged s = true ∧ FailsFirst (x.sharedKey s) rs e := by
  rw [boxesFor, bind_eq_error_iff, mapM_eq_error_iff, KeyTable.privateKey_eq_error_iff,
    ← KeyTable.exists_privateKey_iff, failsFirst_congr fun r e => boxFor_eq_error_iff hseals hn,
    exists_and_right]

/-- There are no boxes without the sender's key and the keys that it shares with the recipients. -/
theorem of_boxesFor {boxes : List RecipientBox} (h : x.boxesFor key s n rs = .ok boxes) :
    x.keys.isManaged s = true ∧ ∀ r ∈ rs, ∃ shared, x.sharedKey s r = .ok shared := by
  obtain ⟨pk, hpk, hboxes⟩ := bind_eq_ok_iff.1 h
  refine ⟨KeyTable.exists_privateKey_iff.1 ⟨pk, hpk⟩, fun r hr => ?_⟩
  obtain ⟨box, hbox⟩ := exists_mapM_eq_ok_iff.1 ⟨boxes, hboxes⟩ r hr
  obtain ⟨shared, hshared, _⟩ := boxFor_eq_ok_iff.1 hbox
  exact ⟨shared, hshared⟩

/-! ## Affected transactions -/

theorem declared_eq_error_iff {a : TxHash × Payload} :
    (do return (a.1, ← x.securityHash c a.2) : Except EnclaveError _) = .error e ↔
      x.masterKey a.2 = .error e := by
  rw [securityHash]
  cases x.masterKey a.2 with
  | error e' => simp
  | ok key => simp [pure, Except.pure]

/-- The hashes fail for the first affected transaction whose master key is not found. -/
theorem securityHashes_eq_error_iff {affected : List (TxHash × Payload)} :
    x.securityHashes c affected = .error e ↔ FailsFirst (fun a => x.masterKey a.2) affected e := by
  rw [securityHashes, mapM_eq_error_iff]
  exact failsFirst_congr fun a e => declared_eq_error_iff

theorem exists_masterKey_of_securityHashes {affected : List (TxHash × Payload)}
    {hashes : List (TxHash × SecurityHash)} (h : x.securityHashes c affected = .ok hashes) :
    ∀ a ∈ affected, ∃ key, x.masterKey a.2 = .ok key := by
  intro a ha
  obtain ⟨d, hd⟩ := exists_mapM_eq_ok_iff.1 ⟨hashes, h⟩ a ha
  exact exists_securityHash_iff.1 ⟨d.2, (declared_eq_ok_iff.1 hd).2⟩

/-- **What is put together builds**: it fails only if a hash does. -/
theorem assemble_eq_error_iff {boxes : List RecipientBox} :
    x.assemble s c n boxes rn rs md = .error e ↔
      x.securityHashes c md.affected.entries = .error e := by
  rw [assemble, bind_eq_error_iff]
  constructor
  · rintro (h | ⟨hashes, _, h⟩)
    · exact h
    · -- the draft's mode and what it asks for are the metadata's, which admits them
      rw [Draft.build_of_admits rfl md.admitted] at h
      cases h
  · exact .inl

/-! ## Encryptions -/

/-- What an encryption fails with: the sender's key is looked for first, then the keys that it
shares with the recipients, in their order, then the master keys of the affected transactions, in
the order of their hashes. -/
inductive Fault (x : Enclave) (s : PublicKey) (rs : List PublicKey) (md : Metadata) :
    EnclaveError → Prop where
  | sender (hs : x.keys.isManaged s = false) : x.Fault s rs md (.keyNotFound s)
  | recipient {e : EnclaveError} (hs : x.keys.isManaged s = true)
    (hrs : FailsFirst (x.sharedKey s) rs e) : x.Fault s rs md e
  | affected {e : EnclaveError} (hs : x.keys.isManaged s = true)
    (hrs : ∀ r ∈ rs, ∃ shared, x.sharedKey s r = .ok shared)
    (hmd : FailsFirst (fun a => x.masterKey a.2) md.affected.entries e) : x.Fault s rs md e

/-- Whether a payload holds a message for its recipients, and all that its metadata asks for. -/
structure Copies (x : Enclave) (key : SymmetricKey) (m : Bytes) (s : PublicKey)
    (rs : List PublicKey) (md : Metadata) (p : Payload) : Prop extends x.Sealed key m p where
  sender : p.sender = s
  recipients : p.recipients = rs
  length_boxes : p.boxes.length = rs.length
  mode : p.mode = md.mode
  execHash : p.execHash = md.execHash
  mandatory : p.mandatory = md.mandatory
  groupId : ∀ g, p.groupId = some g ↔ md.groupId = some g ∧ g.bytes ≠ []
  affected : p.affected.keys = md.affected.keys

/-- **An encryption fails** with the first fault, and with nothing else. -/
theorem result_encrypt_eq_error_iff (hseals : x.encryptor.Seals) (hfit : x.draws.Fit) :
    (x.encrypt m s rs md).result l = .error e ↔ x.Fault s rs md e := by
  obtain ⟨c, hc⟩ := hseals m _ (x.draws.masterKey l.drawn) (hfit (l.drawn + 1))
  rw [result_encrypt, hc, ok_bind, address, bind_eq_error_iff,
    boxesFor_eq_error_iff hseals (hfit _)]
  constructor
  · rintro ((⟨hs, rfl⟩ | ⟨hs, hrs⟩) | ⟨boxes, hboxes, h⟩)
    · exact .sender hs
    · exact .recipient hs hrs
    · obtain ⟨hs, hrs⟩ := of_boxesFor hboxes
      exact .affected hs hrs (securityHashes_eq_error_iff.1 (assemble_eq_error_iff.1 h))
  · intro h
    cases h with
    | sender hs => exact .inl (.inl ⟨hs, rfl⟩)
    | recipient hs hrs => exact .inl (.inr ⟨hs, hrs⟩)
    | affected hs hrs hmd =>
      obtain ⟨boxes, hboxes⟩ := exists_boxesFor hseals (hfit _) hs hrs
      refine .inr ⟨boxes, hboxes, assemble_eq_error_iff.2 ?_⟩
      exact securityHashes_eq_error_iff.2 hmd

/-- **An encryption succeeds** exactly if there is a key for every step. -/
theorem exists_encrypt_iff (hseals : x.encryptor.Seals) (hfit : x.draws.Fit) :
    (∃ p, (x.encrypt m s rs md).result l = .ok p) ↔ x.keys.isManaged s = true ∧
      (∀ r ∈ rs, ∃ shared, x.sharedKey s r = .ok shared) ∧
      ∀ a ∈ md.affected.entries, ∃ key, x.masterKey a.2 = .ok key := by
  constructor
  · rintro ⟨p, h⟩
    rw [result_encrypt] at h
    obtain ⟨c, _, h⟩ := bind_eq_ok_iff.1 h
    obtain ⟨boxes, hboxes, h⟩ := bind_eq_ok_iff.1 h
    obtain ⟨hashes, hhashes, _⟩ := of_assemble h
    obtain ⟨hs, hrs⟩ := of_boxesFor hboxes
    exact ⟨hs, hrs, exists_masterKey_of_securityHashes hhashes⟩
  · rintro ⟨hs, hrs, hmd⟩
    exact exists_encrypt hseals hfit hs hrs hmd m l

/-- **What was encrypted copies** what it was asked for. -/
theorem copies_of_encrypt (hfit : x.draws.Fit) (h : (x.encrypt m s rs md).result l = .ok p) :
    x.Copies (x.draws.masterKey l.drawn) m s rs md p := by
  obtain ⟨hsealed, hs, hrs, hlength⟩ := sealed_of_encrypt hfit h
  obtain ⟨c, boxes, hashes, _, _, _, _, hp⟩ := of_encrypt h
  constructor
  case toSealed => exact hsealed
  case sender => exact hs
  case recipients => exact hrs
  case length_boxes => exact hlength
  case affected => exact Makes.keys_affected (.encrypt h)
  case groupId =>
    intro g
    rw [hp, nonemptyGroupId_eq_some_iff]
  all_goals rw [hp]

/-- **Encrypting is exact**, with an encryptor that seals under the nonces that are drawn. It
succeeds exactly if the sender's key is kept, the sender shares a key with every recipient, and the
master keys of all affected transactions are found; else it fails with the first of these that there
is not. What was put together always builds. What comes of it holds the message under the master key
that was drawn and a box of that key for every recipient at its place, and has all that the metadata
asks for, but for an empty group id. -/
theorem encrypt_exact (hseals : x.encryptor.Seals) (hfit : x.draws.Fit) (m : Bytes) (s : PublicKey)
    (rs : List PublicKey) (md : Metadata) (l : Ledger) :
    ((∃ p, (x.encrypt m s rs md).result l = .ok p) ↔ x.keys.isManaged s = true ∧
      (∀ r ∈ rs, ∃ shared, x.sharedKey s r = .ok shared) ∧
      ∀ a ∈ md.affected.entries, ∃ key, x.masterKey a.2 = .ok key) ∧
    (∀ e, (x.encrypt m s rs md).result l = .error e ↔ x.Fault s rs md e) ∧
    (∀ c n boxes rn e, x.assemble s c n boxes rn rs md = .error e ↔
      x.securityHashes c md.affected.entries = .error e) ∧
    ∀ p, (x.encrypt m s rs md).result l = .ok p →
      x.Copies (x.draws.masterKey l.drawn) m s rs md p :=
  ⟨exists_encrypt_iff hseals hfit, fun _ => result_encrypt_eq_error_iff hseals hfit,
    fun _ _ _ _ _ => assemble_eq_error_iff, fun _ h => copies_of_encrypt hfit h⟩

/-- The metadata that asks for a group with an empty id. -/
def emptyGroup : Metadata := { plainMetadata with groupId := some ⟨[]⟩ }

/-- A payload without boxes, whose master key nobody finds. -/
def unboxed : Payload := Codec.samplePayload.withView [receiverPair.publicKey] []

/-- A message for a recipient who is named twice; one that affects a transaction without boxes, for
the sender and for who does not keep the sender's key. -/
theorem encrypt_exact_node :
    (∃ p, ((nodeEnclave senderPair).encrypt [1, 2, 3] senderPair.publicKey
        [receiverPair.publicKey, receiverPair.publicKey] emptyGroup).result {} = .ok p ∧
      p.recipients = [receiverPair.publicKey, receiverPair.publicKey] ∧ p.boxes.length = 2 ∧
      p.groupId = none) ∧
    ((nodeEnclave senderPair).encrypt [1, 2, 3] senderPair.publicKey [receiverPair.publicKey]
      (affecting [(⟨[1]⟩, unboxed)])).result {} =
        .error (.malformedPayload "an encoded payload should have at least one recipient box") ∧
    ((nodeEnclave receiverPair).encrypt [1, 2, 3] senderPair.publicKey [receiverPair.publicKey]
      (affecting [(⟨[1]⟩, unboxed)])).result {} = .error (.keyNotFound senderPair.publicKey) := by
  have hshared : ∀ rs : List PublicKey, (∀ r ∈ rs, r = receiverPair.publicKey) → ∀ r ∈ rs,
      ∃ shared, (nodeEnclave senderPair).sharedKey senderPair.publicKey r = .ok shared :=
    fun rs hrs r hr => exists_sharedKey_senderPair (.inr (hrs r hr))
  have hs : (nodeEnclave senderPair).keys.isManaged senderPair.publicKey = true :=
    isManaged_nodeEnclave_iff.2 rfl
  have hfit := Draws.counting_fit 0
  refine ⟨?_, ?_, ?_⟩
  · obtain ⟨hok, _, _, hcopies⟩ := encrypt_exact (seals_nodeEnclave senderPair) hfit [1, 2, 3]
      senderPair.publicKey [receiverPair.publicKey, receiverPair.publicKey] emptyGroup {}
    obtain ⟨p, hp⟩ := hok.2 ⟨hs, hshared _ (by simp), fun a ha => by cases ha⟩
    have h := hcopies p hp
    refine ⟨p, hp, h.recipients, h.length_boxes, ?_⟩
    refine Option.eq_none_iff_forall_ne_some.2 fun g hg => ?_
    obtain ⟨hempty, hne⟩ := (h.groupId g).1 hg
    obtain rfl : ⟨[]⟩ = g := Option.some.inj hempty
    exact hne rfl
  · obtain ⟨_, herror, _⟩ := encrypt_exact (seals_nodeEnclave senderPair) hfit [1, 2, 3]
      senderPair.publicKey [receiverPair.publicKey] (affecting [(⟨[1]⟩, unboxed)]) {}
    refine (herror _).2 (.affected hs (hshared _ (by simp)) ?_)
    exact ⟨[], (⟨[1]⟩, unboxed), [], rfl, by simp, rfl⟩
  · obtain ⟨_, herror, _⟩ := encrypt_exact (seals_nodeEnclave receiverPair) hfit [1, 2, 3]
      senderPair.publicKey [receiverPair.publicKey] (affecting [(⟨[1]⟩, unboxed)]) {}
    exact (herror _).2 (.sender (by decide))

end SealedTx.Enclave
