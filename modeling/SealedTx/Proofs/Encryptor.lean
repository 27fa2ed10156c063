import SealedTx.Encryptor
import SealedTx.Proofs.Cipher
import SealedTx.Proofs.Outcome

/-!
# What encryptors keep to

What is proved of enclaves is proved for any encryptor that keeps to a rule or two. The encryptor
of nodes keeps to them: it seals under every nonce of the right length and opens what it sealed
(`standard_openedBy`), and two owners who agree on a secret get the same shared key
(`sharesKey_of_agree`).
-/

namespace SealedTx

/-- Bytes of the length of a key are one. -/
theorem symmetricKey_of_length {b : Bytes} (h : b.length = keySize) :
    symmetricKey b = .ok ⟨b, h⟩ :=
  dif_pos h

theorem symmetricKey_bytes (k : SymmetricKey) : symmetricKey k.bytes = .ok k :=
  symmetricKey_of_length k.length_eq

theorem symmetricKey_eq_ok_iff {b : Bytes} {k : SymmetricKey} :
    symmetricKey b = .ok k ↔ b = k.bytes := by
  constructor
  · intro h
    by_cases hb : b.length = keySize
    · rw [symmetricKey_of_length hb] at h
      cases h
      rfl
    · rw [symmetricKey, dif_neg hb] at h
      cases h
  · rintro rfl
    exact symmetricKey_bytes k

namespace Encryptor

/-- Whether an encryptor opens what another one sealed, under nonces that the cipher takes. -/
def OpenedBy (e f : Encryptor) : Prop :=
  ∀ (plain : Bytes) (n : Nonce) (k : SymmetricKey) (sealed : Bytes),
    n.bytes.length = nonceSize → e.sealBytes plain n k = .ok sealed →
    f.openBytes sealed n k = .ok plain

/-- Whether an encryptor seals under every nonce that the cipher takes. -/
def Seals (e : Encryptor) : Prop :=
  ∀ (plain : Bytes) (n : Nonce) (k : SymmetricKey), n.bytes.length = nonceSize →
    ∃ sealed, e.sealBytes plain n k = .ok sealed

end Encryptor

/-! ## Derived keys -/

theorem length_sha256 (message : Bytes) : (sha256 message).length = 32 := by
  rw [sha256, Sha2.hash, List.length_take]
  simp [Sha2.State.toList]

namespace Derive

theorem length_expandBlocks (key label : Bytes) : ∀ (n i : Nat) (previous : Bytes),
    (expandBlocks key label n i previous).length = 32 * n
  | 0, _, _ => rfl
  | n + 1, i, previous => by
    rw [expandBlocks, List.length_append, length_expandBlocks key label n, hmac, length_sha256]
    omega

/-- As many bytes are derived as are asked for. -/
theorem length_expand (key label : Bytes) (size : Nat) : (expand key label size).length = size := by
  rw [expand, List.length_take, length_expandBlocks]
  omega

end Derive

namespace Encryptor

/-- Every secret makes a shared key. -/
theorem exists_derive (secret : Bytes) : ∃ k, derive secret = .ok k :=
  ⟨_, symmetricKey_of_length (Derive.length_expand _ _ keySize)⟩

/-! ## The encryptor of nodes -/

theorem standard_sharedKey (publicKey : PublicKey) (privateKey : PrivateKey) :
    standard.sharedKey publicKey privateKey = agree publicKey privateKey := by
  rw [standard]

/-- Whether the owners of two pairs get the same shared key, each from its own private key. -/
def SharesKey (p q : KeyPair) : Prop :=
  ∃ k, standard.sharedKey q.publicKey p.privateKey = .ok k ∧
    standard.sharedKey p.publicKey q.privateKey = .ok k

/-- Two owners share a key if they agree on a secret that is not zero. -/
theorem sharesKey_of_agree {p q : KeyPair}
    (h : X25519.agree p.privateKey.bytes q.publicKey.bytes =
      X25519.agree q.privateKey.bytes p.publicKey.bytes)
    (hzero : (X25519.agree p.privateKey.bytes q.publicKey.bytes).all (· = 0) = false) :
    SharesKey p q := by
  obtain ⟨k, hk⟩ := exists_derive (X25519.agree p.privateKey.bytes q.publicKey.bytes)
  refine ⟨k, ?_, ?_⟩
  · simp only [standard_sharedKey, agree, hzero]
    exact hk
  · simp only [standard_sharedKey, agree, ← h, hzero]
    exact hk

theorem checkNonce_eq {n : Nonce} (h : n.bytes.length = nonceSize) : checkNonce n = .ok () :=
  if_pos h

theorem sealChecked_eq {n : Nonce} (h : n.bytes.length = nonceSize) (plain : Bytes)
    (k : SymmetricKey) : sealChecked plain n k = .ok (Aead.sealBytes k.bytes n.bytes plain) := by
  rw [sealChecked, checkNonce_eq h]
  rfl

theorem eq_of_standard_sealBytes {plain sealed : Bytes} {n : Nonce} {k : SymmetricKey}
    (h : n.bytes.length = nonceSize) (hseal : standard.sealBytes plain n k = .ok sealed) :
    sealed = Aead.sealBytes k.bytes n.bytes plain :=
  Except.ok.inj (hseal.symm.trans (sealChecked_eq h plain k))

theorem length_of_standard_sealBytes {plain sealed : Bytes} {n : Nonce} {k : SymmetricKey}
    (h : n.bytes.length = nonceSize) (hseal : standard.sealBytes plain n k = .ok sealed) :
    sealed.length = plain.length + Aead.tagSize := by
  rw [eq_of_standard_sealBytes h hseal]
  exact Aead.length_sealBytes _ _ _

theorem standard_seals : standard.Seals := fun plain _ k h => ⟨_, sealChecked_eq h plain k⟩

/-- **The encryptor of nodes opens what it sealed.** -/
theorem standard_openedBy : standard.OpenedBy standard := by
  intro plain n k sealed h hseal
  obtain rfl := eq_of_standard_sealBytes h hseal
  have hlength : ¬ (Aead.sealBytes k.bytes n.bytes plain).length < Aead.tagSize := by
    rw [Aead.length_sealBytes]
    omega
  show openChecked _ n k = .ok plain
  rw [openChecked, checkNonce_eq h]
  simp only [bind, Except.bind, if_neg hlength, Aead.openBytes?_sealBytes]
  rfl

end Encryptor

end SealedTx
