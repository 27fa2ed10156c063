import SealedTx.Cipher.Aead

/-!
# Sealing is undone

Hiding bytes twice under one key and nonce gives them back, since the stream is as long as the
bytes and does not depend on them (`hide_hide`). The tag is made of the hidden bytes, so it is found
to be theirs, and opening hides them once more (`openBytes?_sealBytes`).
-/

namespace SealedTx

/-! ## Combining with a stream -/

theorem Bytes.length_xor (a b : Bytes) : (xor a b).length = min a.length b.length :=
  List.length_zipWith

/-- Combining twice with a long enough byte string gives the bytes back. -/
theorem Bytes.xor_xor_cancel : ∀ {a b : Bytes}, a.length ≤ b.length → xor (xor a b) b = a
  | [], _, _ => rfl
  | d :: a, [], h => nomatch h
  | d :: a, e :: b, h => by
    have ih : xor (xor a b) b = a := xor_xor_cancel (Nat.le_of_succ_le_succ h)
    have hd : d ^^^ e ^^^ e = d := by
      rw [UInt8.xor_assoc, UInt8.xor_self, UInt8.xor_zero]
    show (d ^^^ e ^^^ e) :: xor (xor a b) b = d :: a
    rw [hd, ih]

namespace ChaCha

theorem length_bytes (ws : List UInt32) : (bytes ws).length = 4 * ws.length := by
  induction ws with
  | nil => rfl
  | cons w ws ih =>
    rw [bytes, List.flatMap_cons, List.length_append, Bytes.length_ofNatLE, List.length_cons]
    rw [bytes] at ih
    omega

theorem length_block (key nonce : Bytes) (counter : Nat) :
    (block key nonce counter).length = 64 := by
  rw [block, length_bytes, Vector.length_toList]

theorem length_stream (key nonce : Bytes) : ∀ n counter : Nat,
    (stream key nonce n counter).length = 64 * n
  | 0, _ => rfl
  | n + 1, counter => by
    rw [stream, List.length_append, length_block, length_stream key nonce n]
    omega

/-- The stream is long enough for the bytes. -/
theorem le_length_stream (key nonce b : Bytes) (counter : Nat) :
    b.length ≤ (stream key nonce ((b.length + 63) / 64) counter).length := by
  rw [length_stream]
  omega

theorem length_apply (key nonce : Bytes) (counter : Nat) (b : Bytes) :
    (apply key nonce counter b).length = b.length := by
  rw [apply, Bytes.length_xor, Nat.min_eq_left (le_length_stream key nonce b counter)]

theorem apply_apply (key nonce : Bytes) (counter : Nat) (b : Bytes) :
    apply key nonce counter (apply key nonce counter b) = b := by
  rw [apply, length_apply, apply]
  exact Bytes.xor_xor_cancel (le_length_stream key nonce b counter)

end ChaCha

/-! ## Sealing -/

namespace Aead

variable (key nonce b : Bytes)

theorem length_hide : (hide key nonce b).length = b.length := ChaCha.length_apply _ _ _ _

/-- **Hiding bytes twice gives them back.** -/
theorem hide_hide : hide key nonce (hide key nonce b) = b := ChaCha.apply_apply _ _ _ _

theorem length_tag : (tag key nonce b).length = tagSize := Bytes.length_ofNatLE _ _

/-- Sealed bytes are longer by a tag. -/
theorem length_sealBytes : (sealBytes key nonce b).length = b.length + tagSize := by
  rw [sealBytes, List.length_append, length_hide, length_tag]

/-- **Sealed bytes are opened.** -/
theorem openBytes?_sealBytes : openBytes? key nonce (sealBytes key nonce b) = some b := by
  have hlength : (sealBytes key nonce b).length - tagSize = (hide key nonce b).length := by
    rw [length_sealBytes, length_hide, Nat.add_sub_cancel]
  rw [openBytes?, hlength, sealBytes, List.take_left, List.drop_left, if_pos rfl, hide_hide]

end Aead

end SealedTx
