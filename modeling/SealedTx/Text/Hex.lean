import SealedTx.Bytes

/-!
# Hexadecimal text

Two lowercase digits a byte, the high half first. Reading takes digits of either case.
-/

namespace SealedTx.Text

/-- The lowercase digit of a number below sixteen. -/
def hexDigit (n : Nat) : Char :=
  Char.ofNat (if n < 10 then 0x30 + n else 0x61 + (n - 10))

/-- The value of a hexadecimal digit of either case. -/
def hexValue? (c : Char) : Option Nat :=
  let n := c.toNat
  if 0x30 ≤ n ∧ n ≤ 0x39 then some (n - 0x30)
  else if 0x61 ≤ n ∧ n ≤ 0x66 then some (n - 0x61 + 10)
  else if 0x41 ≤ n ∧ n ≤ 0x46 then some (n - 0x41 + 10)
  else none

/-- The two digits of a byte. -/
def hexByte (b : UInt8) : String :=
  String.ofList [hexDigit (b.toNat / 16), hexDigit (b.toNat % 16)]

/-- The bytes in hexadecimal. -/
def hex (b : Bytes) : String :=
  String.ofList (b.flatMap fun d => [hexDigit (d.toNat / 16), hexDigit (d.toNat % 16)])

/-- The bytes that pairs of hexadecimal digits stand for. -/
def unhexChars? : List Char → Option Bytes
  | [] => some []
  | [_] => none
  | hi :: lo :: rest => do
    let h ← hexValue? hi
    let l ← hexValue? lo
    return UInt8.ofNat (16 * h + l) :: (← unhexChars? rest)

/-- The bytes a hexadecimal text stands for. -/
def unhex? (s : String) : Option Bytes := unhexChars? s.toList

end SealedTx.Text
