import SealedTx.Bytes

/-!
# The one-time tag

The bytes are the coefficients of a polynomial, sixteen at a time, which is evaluated modulo a
prime at the point that the first half of a one-time key names. The second half is added.
-/

namespace SealedTx.Poly1305

/-- The prime of the field. -/
def prime : Nat := Nat.pow 2 130 - 5

/-- The bits of the first half of the key that count. -/
def clamp : Nat := 0x0ffffffc0ffffffc0ffffffc0fffffff

/-- The coefficient of a piece: its number, with a one behind its last byte. -/
def coefficient (piece : Bytes) : Nat := Bytes.toNatLE piece + Bytes.values piece.length

/-- The tag of a message under a key of 32 bytes. -/
def tag (key message : Bytes) : Bytes :=
  let r := Bytes.toNatLE (key.take 16) &&& clamp
  let s := Bytes.toNatLE (key.drop 16)
  let value := (Bytes.chunks 16 message).foldl (fun acc p => (acc + coefficient p) * r % prime) 0
  Bytes.ofNatLE 16 (value + s)

end SealedTx.Poly1305
