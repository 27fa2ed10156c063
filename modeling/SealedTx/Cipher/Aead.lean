import SealedTx.Cipher.ChaCha
import SealedTx.Cipher.Poly1305

/-!
# Sealing bytes

The stream hides the bytes and the tag vouches for them. The tag's one-time key is the first
block of the stream; the message is hidden by the blocks behind it. The tag covers the hidden
bytes, filled up to sixteen, and the lengths of what it covers besides the message (nothing) and
of the message.
-/

namespace SealedTx.Aead

/-- The bytes in a tag. -/
def tagSize : Nat := 16

/-- The key and the nonce of the stream for a nonce of 24 bytes. -/
def streamKey (key nonce : Bytes) : Bytes × Bytes :=
  (ChaCha.subkey key (nonce.take 16), [0, 0, 0, 0] ++ nonce.drop 16)

/-- The tag of hidden bytes. -/
def tag (key nonce hidden : Bytes) : Bytes :=
  let (k, n) := streamKey key nonce
  let fill := List.replicate ((16 - hidden.length % 16) % 16) 0
  Poly1305.tag ((ChaCha.block k n 0).take 32)
    (hidden ++ fill ++ Bytes.ofNatLE 8 0 ++ Bytes.ofNatLE 8 hidden.length)

/-- The bytes combined with the stream; doing so twice gives them back. -/
def hide (key nonce b : Bytes) : Bytes :=
  let (k, n) := streamKey key nonce
  ChaCha.apply k n 1 b

/-- The sealed form of bytes, with its tag at the end. -/
def sealBytes (key nonce plain : Bytes) : Bytes :=
  let hidden := hide key nonce plain
  hidden ++ tag key nonce hidden

/-- The bytes in sealed form, if their tag is theirs; none are shorter than a tag. -/
def openBytes? (key nonce sealed : Bytes) : Option Bytes :=
  let hidden := sealed.take (sealed.length - tagSize)
  if sealed.drop (sealed.length - tagSize) = tag key nonce hidden then
    some (hide key nonce hidden)
  else none

end SealedTx.Aead
