import SealedTx.Error

/-!
# Length-prefixed fields

The older wire format and the stored form of a privacy group are sequences of fields. A count is
eight bytes, most significant first. A field is the count of its bytes and the bytes, an array
the count of its items and one field for each.

A reader takes its value from the front of a byte string and leaves the rest; one that fails
leaves what it had not yet taken, so a caller can see where it stopped. Counts are read as signed
numbers, hence one with its highest bit set is no length. An array that declares more items than
the bytes can hold fails at the first item that is not there, since an item takes eight bytes at
least.
-/

namespace SealedTx.Fields

/-! ## Writing -/

/-- The number of bytes in a count. -/
def countSize : Nat := 8

/-- A count. -/
def count (n : Nat) : Bytes := Bytes.ofNatBE countSize n

/-- One field. -/
def field (b : Bytes) : Bytes := count b.length ++ b

/-- An array of fields. -/
def array (items : List Bytes) : Bytes := count items.length ++ items.flatMap field

/-! ## Reading -/

/-- Takes a value from the front of a byte string, or fails where it stopped. -/
abbrev Reader := EStateM EnclaveError Bytes

/-- What a reader makes of a whole byte string; bytes that it leaves do not matter. -/
def Reader.eval {α : Type} (r : Reader α) (b : Bytes) : Except EnclaveError α :=
  match r.run b with
  | .ok a _ => .ok a
  | .error e _ => .error e

/-- Whether bytes are left. -/
def hasMore : Reader Bool := return !(← get).isEmpty

/-- Reads a count. -/
def readCount (what : String) : Reader Nat := do
  let b ← get
  if b.length < countSize then
    throw (.malformedPayload s!"truncated length prefix for {what}: {b.length} bytes left")
  set (b.drop countSize)
  let n := Bytes.toNatBE (b.take countSize)
  if n < 0x8000000000000000 then
    return n
  else
    throw (.malformedPayload s!"invalid length {(n : Int) - 0x10000000000000000} for {what}")

/-- Reads one field. -/
def readField (what : String) : Reader Bytes := do
  let n ← readCount what
  let b ← get
  if b.length < n then
    throw (.malformedPayload s!"{what} declares {n} bytes but only {b.length} remain")
  set (b.drop n)
  return b.take n

/-- Reads `n` fields. -/
def readFields (what : String) : (n : Nat) → Reader (List Bytes)
  | 0 => return []
  | n + 1 => do
    let item ← readField what
    return item :: (← readFields what n)

/-- Reads an array. -/
def readArray (what : String) : Reader (List Bytes) := do
  readFields what (← readCount what)

end SealedTx.Fields
