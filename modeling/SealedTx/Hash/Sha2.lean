import SealedTx.Bytes

/-!
# The SHA-2 hashes

One construction for words of any width: sixteen words a block, eight words of state. The width
fixes the size of a block and of the length at its end; a variant adds the number of rounds, the
rotations and the initial state. The round constants of the narrower hashes are the upper halves
of those of the wider ones.
-/

namespace SealedTx.Sha2

/-- The round constants, for words of 64 bits. -/
def roundConstants : Array Nat := #[
  0x428a2f98d728ae22, 0x7137449123ef65cd, 0xb5c0fbcfec4d3b2f, 0xe9b5dba58189dbbc,
  0x3956c25bf348b538, 0x59f111f1b605d019, 0x923f82a4af194f9b, 0xab1c5ed5da6d8118,
  0xd807aa98a3030242, 0x12835b0145706fbe, 0x243185be4ee4b28c, 0x550c7dc3d5ffb4e2,
  0x72be5d74f27b896f, 0x80deb1fe3b1696b1, 0x9bdc06a725c71235, 0xc19bf174cf692694,
  0xe49b69c19ef14ad2, 0xefbe4786384f25e3, 0x0fc19dc68b8cd5b5, 0x240ca1cc77ac9c65,
  0x2de92c6f592b0275, 0x4a7484aa6ea6e483, 0x5cb0a9dcbd41fbd4, 0x76f988da831153b5,
  0x983e5152ee66dfab, 0xa831c66d2db43210, 0xb00327c898fb213f, 0xbf597fc7beef0ee4,
  0xc6e00bf33da88fc2, 0xd5a79147930aa725, 0x06ca6351e003826f, 0x142929670a0e6e70,
  0x27b70a8546d22ffc, 0x2e1b21385c26c926, 0x4d2c6dfc5ac42aed, 0x53380d139d95b3df,
  0x650a73548baf63de, 0x766a0abb3c77b2a8, 0x81c2c92e47edaee6, 0x92722c851482353b,
  0xa2bfe8a14cf10364, 0xa81a664bbc423001, 0xc24b8b70d0f89791, 0xc76c51a30654be30,
  0xd192e819d6ef5218, 0xd69906245565a910, 0xf40e35855771202a, 0x106aa07032bbd1b8,
  0x19a4c116b8d2d0c8, 0x1e376c085141ab53, 0x2748774cdf8eeb99, 0x34b0bcb5e19b48a8,
  0x391c0cb3c5c95a63, 0x4ed8aa4ae3418acb, 0x5b9cca4f7763e373, 0x682e6ff3d6b2b8a3,
  0x748f82ee5defb2fc, 0x78a5636f43172f60, 0x84c87814a1f0ab72, 0x8cc702081a6439ec,
  0x90befffa23631e28, 0xa4506cebde82bde9, 0xbef9a3f7b2c67915, 0xc67178f2e372532b,
  0xca273eceea26619c, 0xd186b8c721c0c207, 0xeada7dd6cde0eb1e, 0xf57d4f7fee6ed178,
  0x06f067aa72176fba, 0x0a637dc5a2c898a6, 0x113f9804bef90dae, 0x1b710b35131c471b,
  0x28db77f523047d84, 0x32caab7b40c72493, 0x3c9ebe0a15c9bebc, 0x431d67c49c100d4c,
  0x4cc5d4becb3e42b6, 0x597f299cfc657e2a, 0x5fcb6fab3ad6faec, 0x6c44198c4a475817]

/-- What tells the hashes with words of `w` bits apart. -/
structure Variant (w : Nat) where
  rounds : Nat
  /-- The rotations that mix the first and the fifth word of the state. -/
  mixA : Nat × Nat × Nat
  mixE : Nat × Nat × Nat
  /-- Two rotations and a shift that mix earlier words of the schedule. -/
  early : Nat × Nat × Nat
  late : Nat × Nat × Nat
  initial : List Nat

/-- The state: eight words. -/
structure State (w : Nat) where
  a : BitVec w
  b : BitVec w
  c : BitVec w
  d : BitVec w
  e : BitVec w
  f : BitVec w
  g : BitVec w
  h : BitVec w

namespace State

variable {w : Nat}

/-- The state with the given words. -/
def ofList (ws : List Nat) : State w :=
  let word (i : Nat) : BitVec w := BitVec.ofNat w (ws.getD i 0)
  ⟨word 0, word 1, word 2, word 3, word 4, word 5, word 6, word 7⟩

/-- The words of a state. -/
def toList (s : State w) : List (BitVec w) := [s.a, s.b, s.c, s.d, s.e, s.f, s.g, s.h]

/-- Adds two states word by word. -/
def add (s t : State w) : State w :=
  ⟨s.a + t.a, s.b + t.b, s.c + t.c, s.d + t.d, s.e + t.e, s.f + t.f, s.g + t.g, s.h + t.h⟩

end State

variable {w : Nat}

/-- The exclusive or of three rotations of a word. -/
def mix (r : Nat × Nat × Nat) (x : BitVec w) : BitVec w :=
  x.rotateRight r.1 ^^^ x.rotateRight r.2.1 ^^^ x.rotateRight r.2.2

/-- The exclusive or of two rotations and a shift of a word. -/
def mixShift (r : Nat × Nat × Nat) (x : BitVec w) : BitVec w :=
  x.rotateRight r.1 ^^^ x.rotateRight r.2.1 ^^^ x >>> r.2.2

/-- Lengthens the schedule by `n` words. -/
def expand (v : Variant w) : (n : Nat) → Array (BitVec w) → Array (BitVec w)
  | 0, ws => ws
  | n + 1, ws =>
    let back (k : Nat) : BitVec w := ws.getD (ws.size - k) 0
    expand v n (ws.push (back 16 + mixShift v.early (back 15) + back 7 + mixShift v.late (back 2)))

/-- One round, with a word of the schedule and a round constant. -/
def round (v : Variant w) (s : State w) (x k : BitVec w) : State w :=
  let choice := (s.e &&& s.f) ^^^ (~~~ s.e &&& s.g)
  let majority := (s.a &&& s.b) ^^^ (s.a &&& s.c) ^^^ (s.b &&& s.c)
  let t := s.h + mix v.mixE s.e + choice + k + x
  ⟨t + mix v.mixA s.a + majority, s.a, s.b, s.c, s.d + t, s.e, s.f, s.g⟩

/-- Takes one block into the state. -/
def absorb (v : Variant w) (s : State w) (block : Bytes) : State w :=
  let words := (Bytes.chunks (w / 8) block).map fun b => BitVec.ofNat w (Bytes.toNatBE b)
  let schedule := expand v (v.rounds - 16) words.toArray
  let constants := roundConstants.toList.map fun k => BitVec.ofNat w (k >>> (64 - w))
  s.add ((schedule.toList.zip constants).foldl (fun s p => round v s p.1 p.2) s)

/-- A message padded to whole blocks: a one bit, zeros, and the message's length in bits. -/
def pad (w : Nat) (message : Bytes) : Bytes :=
  let block := 2 * w
  let free := block - (message.length + 1 + w / 4) % block
  message ++ 0x80 :: List.replicate (free % block) 0 ++
    Bytes.ofNatBE (w / 4) (8 * message.length)

/-- The first `size` bytes of the state after the message was taken in. -/
def hash (v : Variant w) (size : Nat) (message : Bytes) : Bytes :=
  let s := (Bytes.chunks (2 * w) (pad w message)).foldl (absorb v) (State.ofList v.initial)
  (s.toList.flatMap fun x => Bytes.ofNatBE (w / 8) x.toNat).take size

/-- The variant with words of 32 bits. -/
def narrow : Variant 32 where
  rounds := 64
  mixA := (2, 13, 22)
  mixE := (6, 11, 25)
  early := (7, 18, 3)
  late := (17, 19, 10)
  initial := [0x6a09e667, 0xbb67ae85, 0x3c6ef372, 0xa54ff53a,
    0x510e527f, 0x9b05688c, 0x1f83d9ab, 0x5be0cd19]

/-- The variant with words of 64 bits whose hash is cut to 32 bytes. -/
def wideCut : Variant 64 where
  rounds := 80
  mixA := (28, 34, 39)
  mixE := (14, 18, 41)
  early := (1, 8, 7)
  late := (19, 61, 6)
  initial := [0x22312194fc2bf72c, 0x9f555fa3c84c64c2, 0x2393b86b6f53b151, 0x963877195940eabd,
    0x96283ee2a88effe3, 0xbe5e1e2553863992, 0x2b0199fc2c85b8aa, 0x0eb72ddc81c52ca2]

end SealedTx.Sha2

namespace SealedTx

/-- The hash of 32 bytes over words of 32 bits. -/
def sha256 (message : Bytes) : Bytes := Sha2.hash Sha2.narrow 32 message

/-- The hash over words of 64 bits, cut to 32 bytes. -/
def sha512_256 (message : Bytes) : Bytes := Sha2.hash Sha2.wideCut 32 message

end SealedTx
