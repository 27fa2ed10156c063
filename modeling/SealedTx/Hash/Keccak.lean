import SealedTx.Bytes

/-!
# The Keccak sponge

The permutation of 25 lanes of 64 bits and the hashes built on it. A message is padded by a byte
that tells the hash apart and by a final one bit, and is taken in a rate's worth of bytes at a
time; every hash here is shorter than its rate, so it is read off the state at once.

Two of the hashes that share the permutation differ in that byte alone: the standard hashes use
six, the older form uses one.
-/

namespace SealedTx.Keccak

/-- The 25 lanes; lane `(x, y)` stands at `x + 5 * y`. -/
abbrev State := Vector UInt64 25

/-- Lane `(x, y)`, both taken modulo five. -/
def lane (s : State) (x y : Nat) : UInt64 :=
  s.get ⟨x % 5 + 5 * (y % 5), by omega⟩

/-- The state whose lane `(x, y)` is `f x y`. -/
def ofLanes (f : Nat → Nat → UInt64) : State := Vector.ofFn fun i => f (i.val % 5) (i.val / 5)

/-- A lane rotated to the left. -/
def rotl (w : UInt64) (n : Nat) : UInt64 :=
  if n = 0 then w else w <<< UInt64.ofNat n ||| w >>> UInt64.ofNat (64 - n)

/-- How far each lane is rotated, in the order of the state. -/
def rotations : Vector Nat 25 :=
  #v[0, 1, 62, 28, 27, 36, 44, 6, 55, 20, 3, 10, 43, 25, 39, 41, 45, 15, 21, 8, 18, 2, 61, 56, 14]

/-- The constant of each round. -/
def roundConstants : List UInt64 := [
  0x0000000000000001, 0x0000000000008082, 0x800000000000808a, 0x8000000080008000,
  0x000000000000808b, 0x0000000080000001, 0x8000000080008081, 0x8000000000008009,
  0x000000000000008a, 0x0000000000000088, 0x0000000080008009, 0x000000008000000a,
  0x000000008000808b, 0x800000000000008b, 0x8000000000008089, 0x8000000000008003,
  0x8000000000008002, 0x8000000000000080, 0x000000000000800a, 0x800000008000000a,
  0x8000000080008081, 0x8000000000008080, 0x0000000080000001, 0x8000000080008008]

/-! ## The permutation -/

/-- Adds to each lane the parities of two columns. -/
def theta (s : State) : State :=
  let column : Vector UInt64 5 := Vector.ofFn fun x =>
    lane s x 0 ^^^ lane s x 1 ^^^ lane s x 2 ^^^ lane s x 3 ^^^ lane s x 4
  let parity (x : Nat) : UInt64 := column.get ⟨x % 5, by omega⟩
  ofLanes fun x y => lane s x y ^^^ (parity (x + 4) ^^^ rotl (parity (x + 1)) 1)

/-- Rotates the lanes and moves each to its new place. -/
def rhoPi (s : State) : State :=
  ofLanes fun x y =>
    let column := (x + 3 * y) % 5
    rotl (lane s column x) (rotations.get ⟨column + 5 * (x % 5), by omega⟩)

/-- Mixes each row. -/
def chi (s : State) : State :=
  ofLanes fun x y => lane s x y ^^^ (~~~ lane s (x + 1) y &&& lane s (x + 2) y)

/-- Adds a round's constant to the first lane. -/
def iota (c : UInt64) (s : State) : State := s.set 0 (lane s 0 0 ^^^ c)

/-- The permutation. -/
def permute (s : State) : State :=
  roundConstants.foldl (fun s c => iota c (chi (rhoPi (theta s)))) s

/-! ## The sponge -/

/-- A message padded to a whole number of blocks of `rate` bytes. -/
def pad (rate : Nat) (domain : UInt8) (message : Bytes) : Bytes :=
  let free := rate - message.length % rate
  if free = 1 then message ++ [domain ||| 0x80]
  else message ++ domain :: List.replicate (free - 2) 0 ++ [0x80]

/-- Takes one block into the state. -/
def absorb (s : State) (block : Bytes) : State :=
  let words := ((Bytes.chunks 8 block).map fun w => UInt64.ofNat (Bytes.toNatLE w)).toArray
  permute (Vector.ofFn fun i => s.get i ^^^ words.getD i.val 0)

/-- The first `size` bytes of the state after the message was taken in. -/
def sponge (rate : Nat) (domain : UInt8) (size : Nat) (message : Bytes) : Bytes :=
  let s := (Bytes.chunks rate (pad rate domain message)).foldl absorb (Vector.replicate 25 0)
  (s.toList.flatMap fun w => Bytes.ofNatLE 8 w.toNat).take size

end SealedTx.Keccak

namespace SealedTx

/-- The standard hash of 64 bytes. -/
def sha3_512 (message : Bytes) : Bytes := Keccak.sponge 72 0x06 64 message

/-- The hash of 32 bytes in its older form. -/
def keccak256 (message : Bytes) : Bytes := Keccak.sponge 136 0x01 32 message

end SealedTx
