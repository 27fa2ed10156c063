import SealedTx.Proofs.Enclave.Delivery

/-!
# Affected transactions

A payload declares a hash for each transaction that it affects: of its own cipher text, of that of
the affected transaction, and of the master key that the sender found for the affected transaction.
The three stand one behind the other with nothing between them. They are told apart all the same:
the first is the payload's own whoever hashes, and the last has the length of a key
(`securityInput_inj`).

So an enclave that recomputes the hashes reports just the transactions that it was not given, or
that it was given with another cipher text, or with boxes in which it finds another master key
(`invalidHashes_exact`). It needs the master keys of the transactions that it compares and of no
others.

Of the hash it is assumed that it tells the byte strings in question apart (`HashSeparates`).
-/

namespace SealedTx.Enclave

open Outcome

variable {x y : Enclave} {md : Metadata} {p : Payload} {supplied : SortedMap TxHash Payload}

/-! ## What a hash binds -/

/-- **The cipher text and the master key of an affected transaction** can be told from what is
hashed. -/
theorem securityInput_inj {c t t' : Bytes} {k k' : SymmetricKey}
    (h : securityInput c t k = securityInput c t' k') : t = t' ∧ k = k' := by
  unfold securityInput at h
  rw [List.append_assoc, List.append_assoc] at h
  have hlength : k.bytes.length = k'.bytes.length := k.length_eq.trans k'.length_eq.symm
  obtain ⟨ht, hk⟩ := List.append_inj' (List.append_cancel_left h) hlength
  exact ⟨ht, ByteKeyed.key_injective hk⟩

theorem securityHash_eq_ok_iff {c : Bytes} {a : Payload} {hash : SecurityHash} :
    x.securityHash c a = .ok hash ↔ ∃ key, x.masterKey a = .ok key ∧
      hash = ⟨sha3_512 (securityInput c a.cipherText key)⟩ := by
  rw [securityHash, bind_eq_ok_iff]
  refine exists_congr fun key => and_congr_right fun _ => ?_
  exact ⟨fun h => (Except.ok.inj h).symm, fun h => congrArg Except.ok h.symm⟩

theorem exists_securityHash_iff {c : Bytes} {a : Payload} :
    (∃ hash, x.securityHash c a = .ok hash) ↔ ∃ key, x.masterKey a = .ok key := by
  simp [securityHash_eq_ok_iff]

/-- Whether the hash tells apart what one enclave hashes for affected transactions and another one
for the transactions that are supplied in their place. -/
def HashSeparates (x y : Enclave) (c : Bytes) (affected supplied : SortedMap TxHash Payload) :
    Prop :=
  ∀ {k : TxHash} {a q : Payload} {ka kq : SymmetricKey}, affected.get? k = some a →
    supplied.get? k = some q → x.masterKey a = .ok ka → y.masterKey q = .ok kq →
    sha3_512 (securityInput c a.cipherText ka) = sha3_512 (securityInput c q.cipherText kq) →
    securityInput c a.cipherText ka = securityInput c q.cipherText kq

/-! ## What a payload declares -/

/-- Whether an enclave made a payload with certain metadata, from a message or from a staged one. -/
inductive Makes (x : Enclave) (md : Metadata) (p : Payload) : Prop where
  | encrypt {m : Bytes} {s : PublicKey} {rs : List PublicKey} {l : Ledger}
    (h : (x.encrypt m s rs md).result l = .ok p)
  | encryptFromRaw {raw : RawTransaction} {rs : List PublicKey} {l : Ledger}
    (h : (x.encryptFromRaw raw rs md).result l = .ok p)

/-- One entry of the declared hashes. -/
theorem declared_eq_ok_iff {c : Bytes} {e : TxHash × Payload} {d : TxHash × SecurityHash} :
    (do return (e.1, ← x.securityHash c e.2) : Except EnclaveError _) = .ok d ↔
      d.1 = e.1 ∧ x.securityHash c e.2 = .ok d.2 := by
  cases x.securityHash c e.2 with
  | error err => simp
  | ok hash =>
    constructor
    · intro h
      cases h
      exact ⟨rfl, rfl⟩
    · rintro ⟨hk, hd⟩
      rw [ok_bind, ← hk, Except.ok.inj hd]
      rfl

theorem map_fst_securityHashes {c : Bytes} {l : List (TxHash × Payload)}
    {hashes : List (TxHash × SecurityHash)} (h : x.securityHashes c l = .ok hashes) :
    hashes.map (·.1) = l.map (·.1) :=
  map_eq_of_mapM_eq_ok (fun _ _ hd => (declared_eq_ok_iff.1 hd).1) h

/-- **The declared hashes** are those that the sender computes, in order. -/
theorem Makes.securityHashes_eq (h : x.Makes md p) :
    x.securityHashes p.cipherText md.affected.entries = .ok p.affected.entries := by
  obtain ⟨hashes, hhashes, hp⟩ : ∃ hashes,
      x.securityHashes p.cipherText md.affected.entries = .ok hashes ∧
        p.affected = .ofList hashes := by
    cases h with
    | encrypt h =>
      obtain ⟨c, boxes, hashes, _, _, hhashes, _, hp⟩ := of_encrypt h
      rw [hp]
      exact ⟨hashes, hhashes, rfl⟩
    | encryptFromRaw h =>
      rw [result_encryptFromRaw] at h
      obtain ⟨key, _, h⟩ := bind_eq_ok_iff.1 h
      obtain ⟨boxes, _, h⟩ := bind_eq_ok_iff.1 h
      obtain ⟨hashes, hhashes, _, hp⟩ := of_assemble h
      rw [hp]
      exact ⟨hashes, hhashes, rfl⟩
  -- the hashes come in the order of the metadata, so the map of them keeps that order
  have hsorted : hashes.Pairwise fun a b => ByteKeyed.key a.1 < ByteKeyed.key b.1 := by
    have hkeys := md.affected.keys_pairwise
    rwa [SortedMap.keys, ← map_fst_securityHashes hhashes, List.pairwise_map] at hkeys
  rw [hhashes, hp, SortedMap.entries_ofList hsorted]

theorem Makes.keys_affected (h : x.Makes md p) : p.affected.keys = md.affected.keys :=
  map_fst_securityHashes h.securityHashes_eq

theorem Makes.mem_affected_iff (h : x.Makes md p) {k : TxHash} {hash : SecurityHash} :
    (k, hash) ∈ p.affected.entries ↔
      ∃ a, md.affected.get? k = some a ∧ x.securityHash p.cipherText a = .ok hash := by
  rw [mem_iff_of_mapM_eq_ok h.securityHashes_eq]
  constructor
  · rintro ⟨⟨k', a⟩, he, hd⟩
    obtain ⟨rfl, hhash⟩ := declared_eq_ok_iff.1 hd
    exact ⟨a, SortedMap.get?_eq_some_iff.2 he, hhash⟩
  · rintro ⟨a, ha, hhash⟩
    exact ⟨(k, a), SortedMap.get?_eq_some_iff.1 ha, declared_eq_ok_iff.2 ⟨rfl, hhash⟩⟩

/-! ## Nodes to try it with -/

/-- The metadata that names affected transactions. -/
def affecting (affected : List (TxHash × Payload)) : Metadata :=
  { plainMetadata with affected := .ofList affected }

/-- Both nodes find the master key that was drawn for what one sent the other. -/
theorem masterKey_node {a : Payload} {m : Bytes} {l : Ledger}
    (h : ((nodeEnclave senderPair).encrypt m senderPair.publicKey [receiverPair.publicKey]
      plainMetadata).result l = .ok a) :
    (nodeEnclave senderPair).masterKey a = .ok ((Draws.counting 0).masterKey l.drawn) ∧
      (nodeEnclave receiverPair).masterKey a = .ok ((Draws.counting 0).masterKey l.drawn) := by
  obtain ⟨hsealed, hsender, hrecipients, hlength⟩ := sealed_of_encrypt (Draws.counting_fit 0) h
  obtain ⟨box, hboxes⟩ := List.length_eq_one_iff.1 hlength
  have hne : a.boxes ≠ [] := by
    rw [hboxes]
    exact List.cons_ne_nil _ _
  have hs : (nodeEnclave receiverPair).keys.isManaged a.sender = false := by
    rw [hsender]
    decide
  refine ⟨hsealed.masterKey_of_sender (openedBy_nodeEnclave _ _) hne, ?_⟩
  refine masterKey_of_only_key hs hboxes rfl ?_
  refine openAsRecipient_first (openedBy_nodeEnclave _ _) hsealed hboxes (by rw [hrecipients]; rfl)
    (isManaged_nodeEnclave_iff.2 rfl) ?_
  rw [hsender]
  exact agreesWith_nodeEnclave

/-- The cipher text of a message for which a node draws from number `n` on. -/
def drawnCipherText (n : Nat) (m : Bytes) : Bytes :=
  Aead.sealBytes ((Draws.counting 0).masterKey n).bytes ((Draws.counting 0).nonce (n + 1)).bytes m

theorem cipherText_node {m : Bytes} {rs : List PublicKey} {l : Ledger}
    (h : ((nodeEnclave senderPair).encrypt m senderPair.publicKey rs md).result l = .ok p) :
    p.cipherText = drawnCipherText l.drawn m := by
  obtain ⟨c, _, _, hc, _, _, _, hp⟩ := of_encrypt h
  rw [hp]
  exact Encryptor.eq_of_standard_sealBytes (Draws.counting_fit 0 _) hc

/-- Two messages are told apart by the hashes that a third message declares for them, though the
same master key was drawn for both. -/
theorem sha3_512_ne_node :
    sha3_512 (securityInput (drawnCipherText 3 [1, 2, 3]) (drawnCipherText 0 [7])
        ((Draws.counting 0).masterKey 0)) ≠
      sha3_512 (securityInput (drawnCipherText 3 [1, 2, 3]) (drawnCipherText 0 [8])
        ((Draws.counting 0).masterKey 0)) := by
  decide +kernel

/-- The metadata of a message that affects three transactions. -/
def affectingThree (a : Payload) : Metadata :=
  affecting [(⟨[1]⟩, a), (⟨[2]⟩, a), (⟨[3]⟩, a)]

/-- The first of three transactions and, for the third, another payload. -/
def suppliedTwo (a b : Payload) : SortedMap TxHash Payload := .ofList [(⟨[1]⟩, a), (⟨[3]⟩, b)]

theorem pairwise_threeHashes : [(⟨[1]⟩ : TxHash), ⟨[2]⟩, ⟨[3]⟩].Pairwise fun c d =>
    ByteKeyed.key c < ByteKeyed.key d := by
  decide

theorem get?_affectingThree_iff {a q : Payload} {k : TxHash} :
    (affectingThree a).affected.get? k = some q ↔
      (k = ⟨[1]⟩ ∨ k = ⟨[2]⟩ ∨ k = ⟨[3]⟩) ∧ q = a := by
  refine (SortedMap.get?_ofList_iff_mem pairwise_threeHashes).trans ?_
  simp [or_and_right]

theorem get?_suppliedTwo_iff {a b q : Payload} {k : TxHash} :
    (suppliedTwo a b).get? k = some q ↔ (k = ⟨[1]⟩ ∧ q = a) ∨ (k = ⟨[3]⟩ ∧ q = b) := by
  refine (SortedMap.get?_ofList_iff_mem (pairwise_threeHashes.sublist (by simp))).trans ?_
  simp

/-- The hash tells apart what the two nodes hash for the third transaction. -/
theorem hashSeparates_node {a b : Payload}
    (ha : ((nodeEnclave senderPair).encrypt [7] senderPair.publicKey [receiverPair.publicKey]
      plainMetadata).result {} = .ok a)
    (hb : ((nodeEnclave senderPair).encrypt [8] senderPair.publicKey [receiverPair.publicKey]
      plainMetadata).result {} = .ok b) :
    (nodeEnclave senderPair).HashSeparates (nodeEnclave receiverPair) (drawnCipherText 3 [1, 2, 3])
      (affectingThree a).affected (suppliedTwo a b) := by
  intro k a' q ka kq ha' hq hka hkq heq
  obtain ⟨_, rfl⟩ := get?_affectingThree_iff.1 ha'
  obtain ⟨hsender, hreceiver⟩ := masterKey_node ha
  obtain rfl := Except.ok.inj (hsender.symm.trans hka)
  rcases get?_suppliedTwo_iff.1 hq with ⟨_, rfl⟩ | ⟨_, rfl⟩
  · rw [Except.ok.inj (hkq.symm.trans hreceiver)]
  · rw [Except.ok.inj (hkq.symm.trans (masterKey_node hb).2), cipherText_node ha,
      cipherText_node hb] at heq
    exact absurd heq sha3_512_ne_node

/-! ## What a check reports -/

/-- A declared hash can be checked if there is no transaction to check it against, or the master key
of that transaction is found. -/
theorem exists_isInvalidHash_iff {d : TxHash × SecurityHash} :
    (∃ b, y.isInvalidHash p supplied d = .ok b) ↔
      ∀ q, supplied.get? d.1 = some q → ∃ key, y.masterKey q = .ok key := by
  unfold isInvalidHash
  cases supplied.get? d.1 with
  | none => simp [pure, Except.pure]
  | some q =>
    simp only [bind_eq_ok_iff, Option.some.injEq, forall_eq']
    rw [← exists_securityHash_iff (c := p.cipherText)]
    constructor
    · rintro ⟨_, hash, hhash, _⟩
      exact ⟨hash, hhash⟩
    · rintro ⟨hash, hhash⟩
      exact ⟨_, hash, hhash, rfl⟩

/-- A declared hash is reported if there is no transaction to check it against, or that transaction
has another one. -/
theorem isInvalidHash_eq_true_iff {d : TxHash × SecurityHash} :
    y.isInvalidHash p supplied d = .ok true ↔ supplied.get? d.1 = none ∨
      ∃ q hash, supplied.get? d.1 = some q ∧ y.securityHash p.cipherText q = .ok hash ∧
        hash ≠ d.2 := by
  unfold isInvalidHash
  cases supplied.get? d.1 with
  | none => simp [pure, Except.pure]
  | some q =>
    simp only [bind_eq_ok_iff, reduceCtorEq, false_or, Option.some.injEq]
    constructor
    · rintro ⟨hash, hhash, hne⟩
      exact ⟨q, hash, rfl, hhash, of_decide_eq_true (Except.ok.inj hne)⟩
    · rintro ⟨_, hash, rfl, hhash, hne⟩
      exact ⟨hash, hhash, congrArg Except.ok (decide_eq_true hne)⟩

theorem invalidHashes_eq_ok_iff {ks : List TxHash} :
    y.invalidHashes p supplied = .ok ks ↔
      (∀ d ∈ p.affected.entries, ∃ b, y.isInvalidHash p supplied d = .ok b) ∧
        ks = (p.affected.entries.filter fun d =>
          (y.isInvalidHash p supplied d).toOption == some true).map (·.1) := by
  rw [invalidHashes, bind_eq_ok_iff]
  constructor
  · rintro ⟨ds, hds, h⟩
    obtain ⟨hall, rfl⟩ := filterM_eq_ok_iff.1 hds
    exact ⟨hall, (Except.ok.inj h).symm⟩
  · rintro ⟨hall, rfl⟩
    exact ⟨_, filterM_eq_ok_iff.2 ⟨hall, rfl⟩, rfl⟩

theorem mem_invalidHashes_iff {ks : List TxHash} (h : y.invalidHashes p supplied = .ok ks)
    {k : TxHash} :
    k ∈ ks ↔ ∃ hash, (k, hash) ∈ p.affected.entries ∧
      y.isInvalidHash p supplied (k, hash) = .ok true := by
  obtain ⟨_, rfl⟩ := invalidHashes_eq_ok_iff.1 h
  simp [toOption_eq_some_iff]

theorem pairwise_of_invalidHashes {ks : List TxHash} (h : y.invalidHashes p supplied = .ok ks) :
    ks.Pairwise fun a b => ByteKeyed.key a < ByteKeyed.key b := by
  obtain ⟨_, rfl⟩ := invalidHashes_eq_ok_iff.1 h
  exact p.affected.keys_pairwise.sublist (List.filter_sublist.map _)

/-- The hash of a supplied transaction is the declared one exactly if its cipher text and its master
key are those of the affected transaction. -/
theorem HashSeparates.eq_iff {c : Bytes} {affected : SortedMap TxHash Payload} {k : TxHash}
    {a q : Payload} {hash hash' : SecurityHash} (hsha : HashSeparates x y c affected supplied)
    (ha : affected.get? k = some a) (hq : supplied.get? k = some q)
    (hhash : x.securityHash c a = .ok hash) (hhash' : y.securityHash c q = .ok hash') :
    hash' = hash ↔ q.cipherText = a.cipherText ∧ y.masterKey q = x.masterKey a := by
  obtain ⟨ka, hka, rfl⟩ := securityHash_eq_ok_iff.1 hhash
  obtain ⟨kq, hkq, rfl⟩ := securityHash_eq_ok_iff.1 hhash'
  rw [hka, hkq, Blob.mk.injEq]
  constructor
  · intro h
    obtain ⟨ht, hk⟩ := securityInput_inj (hsha ha hq hka hkq h.symm)
    exact ⟨ht.symm, congrArg Except.ok hk.symm⟩
  · rintro ⟨ht, hk⟩
    rw [ht, Except.ok.inj hk]

theorem Makes.fst_mem_keys (h : x.Makes md p) {d : TxHash × SecurityHash}
    (hd : d ∈ p.affected.entries) : d.1 ∈ md.affected.keys := by
  rw [← h.keys_affected]
  exact List.mem_map_of_mem hd

/-- A check needs the master keys of the supplied transactions that the payload affects. -/
theorem Makes.exists_invalidHashes_iff (h : x.Makes md p) :
    (∃ ks, y.invalidHashes p supplied = .ok ks) ↔
      ∀ k ∈ md.affected.keys, ∀ q, supplied.get? k = some q → ∃ key, y.masterKey q = .ok key := by
  constructor
  · rintro ⟨ks, hks⟩ k hk
    rw [← h.keys_affected] at hk
    obtain ⟨hash, hd⟩ := SortedMap.mem_keys_iff.1 hk
    exact exists_isInvalidHash_iff.1 ((invalidHashes_eq_ok_iff.1 hks).1 _ hd)
  · intro hfound
    refine ⟨_, invalidHashes_eq_ok_iff.2 ⟨fun d hd => ?_, rfl⟩⟩
    exact exists_isInvalidHash_iff.2 (hfound _ (h.fst_mem_keys hd))

/-- **A check reports** the affected transactions that were not supplied, or that are not the ones
that were. -/
theorem Makes.mem_invalidHashes_iff {ks : List TxHash} (h : x.Makes md p)
    (hsha : HashSeparates x y p.cipherText md.affected supplied)
    (hks : y.invalidHashes p supplied = .ok ks) {k : TxHash} :
    k ∈ ks ↔ ∃ a, md.affected.get? k = some a ∧ (supplied.get? k = none ∨
      ∃ q, supplied.get? k = some q ∧
        (q.cipherText ≠ a.cipherText ∨ y.masterKey q ≠ x.masterKey a)) := by
  rw [Enclave.mem_invalidHashes_iff hks]
  constructor
  · rintro ⟨hash, hd, hinvalid⟩
    obtain ⟨a, ha, hhash⟩ := h.mem_affected_iff.1 hd
    refine ⟨a, ha, (isInvalidHash_eq_true_iff.1 hinvalid).imp id ?_⟩
    rintro ⟨q, hash', hq, hhash', hne⟩
    exact ⟨q, hq, not_and_or.1 (mt (hsha.eq_iff ha hq hhash hhash').2 hne)⟩
  · rintro ⟨a, ha, hdiffers⟩
    have hk : k ∈ p.affected.keys := by
      rw [h.keys_affected, ← SortedMap.get?_isSome_iff, ha]
      rfl
    obtain ⟨hash, hd⟩ := SortedMap.mem_keys_iff.1 hk
    obtain ⟨a', ha', hhash⟩ := h.mem_affected_iff.1 hd
    obtain rfl : a = a' := Option.some.inj (ha.symm.trans ha')
    refine ⟨hash, hd, isInvalidHash_eq_true_iff.2 (hdiffers.imp id ?_)⟩
    rintro ⟨q, hq, hne⟩
    -- the check went through, so the supplied transaction has a hash to compare
    have hcheck := (invalidHashes_eq_ok_iff.1 hks).1 _ hd
    obtain ⟨hash', hhash'⟩ := exists_securityHash_iff.2 (exists_isInvalidHash_iff.1 hcheck q hq)
    exact ⟨q, hash', hq, hhash', mt (hsha.eq_iff ha hq hhash hhash').1 (not_and_or.2 hne)⟩

/-- What else was supplied makes no difference. -/
theorem Makes.invalidHashes_congr {supplied' : SortedMap TxHash Payload} (h : x.Makes md p)
    (hsame : ∀ k ∈ md.affected.keys, supplied'.get? k = supplied.get? k) :
    y.invalidHashes p supplied' = y.invalidHashes p supplied := by
  rw [invalidHashes, invalidHashes, filterM_congr fun d hd => ?_]
  rw [isInvalidHash, isInvalidHash, hsame _ (h.fst_mem_keys hd)]

/-- **A check of the declared hashes is exact**, on whatever enclave it is made: it goes through if
the master keys of the supplied transactions that the payload affects are found. It then reports, in
order and once each, the affected transactions that were not supplied, or with another cipher text
or another master key. Whatever else was supplied makes no difference. -/
theorem invalidHashes_exact (h : x.Makes md p)
    (hsha : HashSeparates x y p.cipherText md.affected supplied) :
    ((∃ ks, y.invalidHashes p supplied = .ok ks) ↔
      ∀ k ∈ md.affected.keys, ∀ q, supplied.get? k = some q → ∃ key, y.masterKey q = .ok key) ∧
    (∀ ks, y.invalidHashes p supplied = .ok ks →
      (ks.Pairwise fun a b => ByteKeyed.key a < ByteKeyed.key b) ∧
      ∀ k, k ∈ ks ↔ ∃ a, md.affected.get? k = some a ∧ (supplied.get? k = none ∨
        ∃ q, supplied.get? k = some q ∧
          (q.cipherText ≠ a.cipherText ∨ y.masterKey q ≠ x.masterKey a))) ∧
    ∀ supplied', (∀ k ∈ md.affected.keys, supplied'.get? k = supplied.get? k) →
      y.invalidHashes p supplied' = y.invalidHashes p supplied := by
  refine ⟨h.exists_invalidHashes_iff, fun ks hks => ?_, fun supplied' => h.invalidHashes_congr⟩
  exact ⟨pairwise_of_invalidHashes hks, fun k => h.mem_invalidHashes_iff hsha hks⟩

/-- Of three affected transactions the receiver was given the first, nothing for the second, and for
the third another cipher text under the same master key. -/
theorem invalidHashes_exact_node : ∃ a b p,
    ((nodeEnclave senderPair).encrypt [7] senderPair.publicKey [receiverPair.publicKey]
      plainMetadata).result {} = .ok a ∧
    ((nodeEnclave senderPair).encrypt [8] senderPair.publicKey [receiverPair.publicKey]
      plainMetadata).result {} = .ok b ∧
    b.cipherText ≠ a.cipherText ∧
    (nodeEnclave receiverPair).masterKey b = (nodeEnclave senderPair).masterKey a ∧
    ((nodeEnclave senderPair).encrypt [1, 2, 3] senderPair.publicKey [receiverPair.publicKey]
      (affectingThree a)).result { drawn := 3 } = .ok p ∧
    (nodeEnclave receiverPair).invalidHashes p (suppliedTwo a b) = .ok [⟨[2]⟩, ⟨[3]⟩] := by
  obtain ⟨a, ha⟩ := exists_encrypt_node [7] {} 1
  obtain ⟨b, hb⟩ := exists_encrypt_node [8] {} 1
  obtain ⟨hasender, hareceiver⟩ := masterKey_node ha
  obtain ⟨_, hbreceiver⟩ := masterKey_node hb
  have hne : b.cipherText ≠ a.cipherText := by
    intro h
    rw [cipherText_node ha, cipherText_node hb] at h
    exact sha3_512_ne_node (by rw [← h])
  have hmasterKeys : ∀ e ∈ (affectingThree a).affected.entries,
      ∃ key, (nodeEnclave senderPair).masterKey e.2 = .ok key := by
    intro e he
    rw [(get?_affectingThree_iff.1 (SortedMap.get?_eq_some_iff.2 he)).2]
    exact ⟨_, hasender⟩
  obtain ⟨p, hp⟩ := exists_encrypt_affecting_node hmasterKeys [1, 2, 3] { drawn := 3 } 1
  have hsha : (nodeEnclave senderPair).HashSeparates (nodeEnclave receiverPair) p.cipherText
      (affectingThree a).affected (suppliedTwo a b) := by
    rw [cipherText_node hp]
    exact hashSeparates_node ha hb
  obtain ⟨hok, hexact, _⟩ := invalidHashes_exact (.encrypt hp) hsha
  obtain ⟨ks, hks⟩ := hok.2 fun k _ q hq => by
    rcases get?_suppliedTwo_iff.1 hq with ⟨_, rfl⟩ | ⟨_, rfl⟩
    · exact ⟨_, hareceiver⟩
    · exact ⟨_, hbreceiver⟩
  obtain ⟨hsorted, hmem⟩ := hexact ks hks
  have hks' : ks = [⟨[2]⟩, ⟨[3]⟩] := by
    refine SortedSet.eq_of_mem_iff hsorted pairwise_threeHashes.of_cons fun k => ?_
    rw [hmem, List.mem_pair]
    constructor
    · rintro ⟨a', ha', hreported⟩
      obtain ⟨hk | hk, rfl⟩ := get?_affectingThree_iff.1 ha'
      · rw [get?_suppliedTwo_iff.2 (.inl ⟨hk, rfl⟩), hasender] at hreported
        simp [hareceiver] at hreported
      · exact hk
    · rintro (rfl | rfl)
      · exact ⟨a, get?_affectingThree_iff.2 ⟨.inr (.inl rfl), rfl⟩, .inl rfl⟩
      · exact ⟨a, get?_affectingThree_iff.2 ⟨.inr (.inr rfl), rfl⟩,
          .inr ⟨b, get?_suppliedTwo_iff.2 (.inr ⟨rfl, rfl⟩), .inl hne⟩⟩
  exact ⟨a, b, p, ha, hb, hne, hbreceiver.trans hasender.symm, hp, hks' ▸ hks⟩

end SealedTx.Enclave
