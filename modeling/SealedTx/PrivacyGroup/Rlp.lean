import SealedTx.Bytes

/-!
# Recursive length prefixes

The bytes of a list of byte strings. A single byte below 128 stands for itself; a string or a
list of less than 56 bytes has its length in its first byte, a longer one the length of its
length.
-/

namespace SealedTx.Rlp

/-- The digits of a number, most significant first, without leading zeros. -/
def digits (n : Nat) : Bytes :=
  if _h : n = 0 then [] else digits (n / 256) ++ [UInt8.ofNat n]
termination_by n
decreasing_by omega

/-- The length of a body, in the range of first bytes that begins at `base`. -/
def lengthPrefix (base n : Nat) : Bytes :=
  if n < 56 then [UInt8.ofNat (base + n)]
  else UInt8.ofNat (base + 55 + (digits n).length) :: digits n

/-- A byte string. -/
def string (b : Bytes) : Bytes :=
  match b with
  | [d] => if d < 0x80 then [d] else lengthPrefix 0x80 1 ++ [d]
  | b => lengthPrefix 0x80 b.length ++ b

/-- A list of byte strings. -/
def list (items : List Bytes) : Bytes :=
  let body := items.flatMap string
  lengthPrefix 0xC0 body.length ++ body

end SealedTx.Rlp
