import SealedTx.Cbor.Value

/-!
# Writing CBOR

Every length is written, and every number in as few bytes as hold it. A float keeps its eight
bytes.
-/

namespace SealedTx.Cbor

/-- The head of an item: its major type, and its argument in as few bytes as hold it. -/
def head (major n : Nat) : Bytes :=
  if n < 24 then [UInt8.ofNat (32 * major + n)]
  else if n < 0x100 then UInt8.ofNat (32 * major + 24) :: Bytes.ofNatBE 1 n
  else if n < 0x10000 then UInt8.ofNat (32 * major + 25) :: Bytes.ofNatBE 2 n
  else if n < 0x100000000 then UInt8.ofNat (32 * major + 26) :: Bytes.ofNatBE 4 n
  else UInt8.ofNat (32 * major + 27) :: Bytes.ofNatBE 8 n

namespace Value

mutual

/-- The bytes of an item. -/
def encode : Value → Bytes
  | integer n => if 0 ≤ n then head 0 n.toNat else head 1 (-1 - n).toNat
  | bytes b => head 2 b.length ++ b
  | text s => head 3 (Bytes.ofText s).length ++ Bytes.ofText s
  | array items => head 4 items.length ++ encodeItems items
  | map entries => head 5 entries.length ++ encodeEntries entries
  | tag n item => head 6 n ++ encode item
  | bool b => head 7 (if b then 21 else 20)
  | null => head 7 22
  | float bits => UInt8.ofNat (32 * 7 + 27) :: Bytes.ofNatBE 8 bits.toNat

/-- The bytes of the items of an array. -/
def encodeItems : List Value → Bytes
  | [] => []
  | item :: rest => encode item ++ encodeItems rest

/-- The bytes of the entries of a map. -/
def encodeEntries : List (Value × Value) → Bytes
  | [] => []
  | (k, v) :: rest => encode k ++ encode v ++ encodeEntries rest

end

end Value

end SealedTx.Cbor
