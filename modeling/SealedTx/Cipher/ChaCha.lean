import SealedTx.Bytes

/-!
# The ChaCha20 stream

Sixteen words of 32 bits, mixed in twenty rounds, make a block of 64 bytes of the stream. The
longer nonce of 24 bytes is taken in two steps: its first sixteen bytes make a new key, and the
other eight are the nonce of the stream under that key.
-/

namespace SealedTx.ChaCha

/-- The sixteen words. -/
abbrev State := Vector UInt32 16

/-- A word rotated to the left. -/
def rotl (w : UInt32) (n : UInt32) : UInt32 := w <<< n ||| w >>> (32 - n)

/-- Mixes four of the words. -/
def quarterRound (s : State) (i j k l : Fin 16) : State :=
  let a := s[i]
  let b := s[j]
  let c := s[k]
  let d := s[l]
  let a := a + b
  let d := rotl (d ^^^ a) 16
  let c := c + d
  let b := rotl (b ^^^ c) 12
  let a := a + b
  let d := rotl (d ^^^ a) 8
  let c := c + d
  let b := rotl (b ^^^ c) 7
  (((s.set i a).set j b).set k c).set l d

/-- Mixes the columns and then the diagonals. -/
def doubleRound (s : State) : State :=
  let s := quarterRound s 0 4 8 12
  let s := quarterRound s 1 5 9 13
  let s := quarterRound s 2 6 10 14
  let s := quarterRound s 3 7 11 15
  let s := quarterRound s 0 5 10 15
  let s := quarterRound s 1 6 11 12
  let s := quarterRound s 2 7 8 13
  quarterRound s 3 4 9 14

/-- All twenty rounds. -/
def mix (s : State) : State := (List.range 10).foldl (fun s _ => doubleRound s) s

/-- The words of a byte string. -/
def words (b : Bytes) : Array UInt32 :=
  ((Bytes.chunks 4 b).map fun w => UInt32.ofNat (Bytes.toNatLE w)).toArray

/-- The bytes of words. -/
def bytes (ws : List UInt32) : Bytes := ws.flatMap fun w => Bytes.ofNatLE 4 w.toNat

/-- The four words that begin every state. -/
def constants : Bytes := Bytes.ofText "expand 32-byte k"

/-- The state of a key and sixteen bytes of counter and nonce. -/
def initial (key counterAndNonce : Bytes) : State :=
  let ws := words (constants ++ key ++ counterAndNonce)
  Vector.ofFn fun i => ws.getD i.val 0

/-- A block of the stream. -/
def block (key nonce : Bytes) (counter : Nat) : Bytes :=
  let s := initial key (Bytes.ofNatLE 4 counter ++ nonce)
  bytes (Vector.zipWith (· + ·) (mix s) s).toList

/-- `n` blocks of the stream, from a counter on. -/
def stream (key nonce : Bytes) : (n counter : Nat) → Bytes
  | 0, _ => []
  | n + 1, counter => block key nonce counter ++ stream key nonce n (counter + 1)

/-- The bytes combined with the stream from a counter on. -/
def apply (key nonce : Bytes) (counter : Nat) (b : Bytes) : Bytes :=
  Bytes.xor b (stream key nonce ((b.length + 63) / 64) counter)

/-- The key that the first sixteen bytes of a long nonce make. -/
def subkey (key nonce : Bytes) : Bytes :=
  let s := (mix (initial key nonce)).toList
  bytes (s.take 4 ++ s.drop 12)

end SealedTx.ChaCha
