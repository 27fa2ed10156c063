import SealedTx.Cbor.Value

/-!
# Reading CBOR

An item is read from the front of a byte string and the rest is left. All forms are accepted:
arguments longer than they need to be, lengths left open, and strings in chunks, which may nest.
Undefined is read as null. A byte string of at most sixteen bytes under a tag for big numbers is
an integer; a big number that no plain integer can hold keeps its tag, and loses its zeros.

Of two faults the first one met counts. A text is met piece by piece, so one that ends early is
malformed nevertheless if a whole piece of it is no text. The head behind a tag is met before the
level that the tag opens.

## Why reading ends

Maps, arrays and tags nest to a limit, and `item` recurses on how much of it is left. Within one
level a loop of known length recurses on its length, and an open one on the number of bytes that
are left, of which each round takes one at least. The search for a broken piece recurses on the
number of bytes, of which each piece keeps three at most for the next.
-/

namespace SealedTx.Cbor

/-- Why bytes are no item. -/
inductive Fault where
  /-- The bytes end within the item. -/
  | endsEarly
  /-- A head that stands for nothing, or text that is not UTF-8. -/
  | malformed
  /-- A well-formed item where it has no meaning. -/
  | meaningless
  /-- Items nested too deep. -/
  | tooDeep
deriving DecidableEq, Repr

/-- The word for a fault. -/
def Fault.name : Fault → String
  | endsEarly => "Io"
  | malformed => "Syntax"
  | meaningless => "Semantic"
  | tooDeep => "RecursionLimitExceeded"

/-- Takes a value from the front of a byte string. -/
abbrev Reader := StateT Bytes (Except Fault)

/-- Takes `n` bytes. -/
def take (n : Nat) : Reader Bytes := do
  let b ← get
  if b.length < n then throw .endsEarly
  set (b.drop n)
  return b.take n

/-! ## Floats -/

/-- The bits of the double that equals a float with fewer bits: `e` of them for the exponent and
`f` for the fraction. -/
def widen (e f n : Nat) : Nat :=
  let sign := n / Nat.pow 2 (e + f) % 2
  let exponent := n / Nat.pow 2 f % Nat.pow 2 e
  let fraction := n % Nat.pow 2 f
  let bias := Nat.pow 2 (e - 1) - 1
  let joined (exponent fraction : Nat) := exponent * Nat.pow 2 52 + fraction
  let magnitude :=
    if exponent = Nat.pow 2 e - 1 then joined 2047 (fraction * Nat.pow 2 (52 - f))
    else if exponent = 0 then
      if fraction = 0 then 0
      else
        let top := Nat.log2 fraction
        joined (top + 1024 - bias - f) ((fraction - Nat.pow 2 top) * Nat.pow 2 (52 - top))
    else joined (exponent + 1023 - bias) (fraction * Nat.pow 2 (52 - f))
  sign * Nat.pow 2 63 + magnitude

/-! ## Heads -/

/-- The head of an item, whose length may be left open. -/
inductive Head where
  | unsigned (n : Nat)
  | negative (n : Nat)
  | bytes (length : Option Nat)
  | text (length : Option Nat)
  | array (length : Option Nat)
  | map (length : Option Nat)
  | tag (n : Nat)
  | simple (n : Nat)
  | float (bits : UInt64)
  /-- The end of an item whose length was left open. -/
  | stop

/-- Reads the argument of a head, none if it is left open. -/
def readArgument (minor : Nat) : Reader (Option Nat) := do
  if minor < 24 then return some minor
  else if minor = 24 then return some (Bytes.toNatBE (← take 1))
  else if minor = 25 then return some (Bytes.toNatBE (← take 2))
  else if minor = 26 then return some (Bytes.toNatBE (← take 4))
  else if minor = 27 then return some (Bytes.toNatBE (← take 8))
  else if minor = 31 then return none
  else throw .malformed

/-- The head of major type seven. -/
def specialHead (minor : Nat) : (argument : Option Nat) → Head
  | none => .stop
  | some n =>
    if minor ≤ 24 then .simple n
    else if minor = 25 then .float (UInt64.ofNat (widen 5 10 n))
    else if minor = 26 then .float (UInt64.ofNat (widen 8 23 n))
    else .float (UInt64.ofNat n)

/-- Reads the head of an item. -/
def readHead : Reader Head := do
  let first := (Bytes.toNatLE (← take 1))
  let minor := first % 32
  let argument ← readArgument minor
  match first / 32, argument with
  | 0, some n => return .unsigned n
  | 1, some n => return .negative n
  | 2, length => return .bytes length
  | 3, length => return .text length
  | 4, length => return .array length
  | 5, length => return .map length
  | 6, some n => return .tag n
  | 7, argument => return specialHead minor argument
  | _, _ => throw .malformed

/-- The head that comes next, which stays where it is. -/
def peekHead : Reader Head := do
  let b ← get
  let head ← readHead
  set b
  return head

/-! ## Strings -/

/-- The number of bytes in a piece of a text. -/
def pieceSize : Nat := 4096

/-- How many bytes at the end of a piece are no text without what follows. A character has four
bytes at most, so a piece that would leave more than three is broken. -/
def openEnd? (piece : Bytes) : Option (Fin 4) :=
  (List.finRange 4).find? fun k => (Bytes.toText? (piece.take (piece.length - k))).isSome

/-- Whether bytes hold a broken piece. The open end of a piece begins the next one. -/
def isBroken (b : Bytes) : Bool :=
  if b.length < pieceSize then false
  else
    match openEnd? (b.take pieceSize) with
    | none => true
    | some k => isBroken (b.drop (pieceSize - k))
termination_by b.length
decreasing_by
  simp only [List.length_drop, pieceSize] at *
  omega

/-- Takes the `n` bytes of a text. -/
def takeText (n : Nat) : Reader Bytes := do
  let b ← get
  if b.length < n ∧ isBroken b then throw .malformed
  let text ← take n
  if (Bytes.toText? text).isNone then throw .malformed
  return text

/-- Takes the `n` bytes of a string. -/
def takeChunk (isText : Bool) (n : Nat) : Reader Bytes := if isText then takeText n else take n

/-- The length in the head of a chunk of a string, unless it is the head of something else. -/
def chunkLength? (isText : Bool) : Head → Option (Option Nat)
  | .bytes length => if isText then none else some length
  | .text length => if isText then some length else none
  | _ => none

/-- Reads the chunks of a string whose length was left open, within `nested` further ones. -/
def readChunks (isText : Bool) : (rounds nested : Nat) → Reader Bytes
  | 0, _ => throw .endsEarly
  | rounds + 1, nested => do
    match ← readHead with
    | .stop => if nested = 0 then return [] else readChunks isText rounds (nested - 1)
    | head =>
      match chunkLength? isText head with
      | none => throw .malformed
      | some none => readChunks isText rounds (nested + 1)
      | some (some n) => do
        let chunk ← takeChunk isText n
        return chunk ++ (← readChunks isText rounds nested)

/-- Reads the bytes of a string behind its head. -/
def readString (isText : Bool) : (length : Option Nat) → Reader Bytes
  | some n => takeChunk isText n
  | none => do readChunks isText ((← get).length + 1) 0

/-! ## Loops -/

/-- Reads `n` values. -/
def repeated {α : Type} (r : Reader α) : (n : Nat) → Reader (List α)
  | 0 => return []
  | n + 1 => do
    let a ← r
    return a :: (← repeated r n)

/-- Reads values up to a stop, in at most `rounds` rounds. -/
def untilStop {α : Type} (r : Reader α) : (rounds : Nat) → Reader (List α)
  | 0 => throw .endsEarly
  | rounds + 1 => do
    match ← peekHead with
    | .stop => do
      let _ ← readHead
      return []
    | _ => do
      let a ← r
      return a :: (← untilStop r rounds)

/-- Reads the values of an item whose length may be left open. -/
def sequenceOf {α : Type} (r : Reader α) : (length : Option Nat) → Reader (List α)
  | some n => repeated r n
  | none => do untilStop r ((← get).length + 1)

/-! ## Items -/

/-- The number that a simple item is read as. -/
def simpleValue : Nat → Reader Value
  | 20 => return .bool false
  | 21 => return .bool true
  | 22 | 23 => return .null
  | _ => throw .meaningless

/-- An integer of any size: as it is if a plain one can hold it, else a tagged big number. -/
def Value.ofInt (n : Int) : Value :=
  let big (tag : Nat) (m : Nat) : Value :=
    .tag tag (.bytes ((Bytes.ofNatBE 16 m).dropWhile (· = 0)))
  if n < -0x10000000000000000 then big 3 (-1 - n).toNat
  else if n < 0x10000000000000000 then .integer n
  else big 2 n.toNat

/-- The length of the byte string that is an integer under a tag. -/
def bigLength? (tag : Nat) : Head → Option Nat
  | .bytes (some length) => if (tag = 2 ∨ tag = 3) ∧ length ≤ 16 then some length else none
  | _ => none

/-- Reads the integer that a byte string is under a tag for big numbers. -/
def bigNumber (tag length : Nat) : Reader Value := do
  let _ ← readHead
  let n := Bytes.toNatBE (← take length)
  if tag = 2 then return .ofInt n
  else if n < Nat.pow 2 127 then return .ofInt (-1 - n)
  else throw .meaningless

/-- Reads an item whose parts, if it may have any, are read by `inner`. -/
def itemOver (inner : Option (Reader Value)) : Reader Value := do
  let nested : Reader (Reader Value) :=
    match inner with
    | some r => pure r
    | none => throw .tooDeep
  match ← readHead with
  | .unsigned n => return .integer n
  | .negative n => return .integer (-1 - n)
  | .bytes length => return .bytes (← readString false length)
  | .text length =>
    match Bytes.toText? (← readString true length) with
    | some s => return .text s
    | none => throw .malformed
  | .simple n => simpleValue n
  | .float bits => return .float bits
  | .stop => throw .meaningless
  | .array length =>
    let r ← nested
    return .array (← sequenceOf r length)
  | .map length =>
    let r ← nested
    return .map (← sequenceOf (do return (← r, ← r)) length)
  | .tag n =>
    match bigLength? n (← peekHead) with
    | some length => bigNumber n length
    | none =>
      let r ← nested
      return .tag n (← r)

/-- Reads an item with at most `depth` levels of maps, arrays and tags. -/
def item : (depth : Nat) → Reader Value
  | 0 => itemOver none
  | depth + 1 => itemOver (some (item depth))

/-- The most levels of maps, arrays and tags. -/
def depthLimit : Nat := 256

/-- Reads the item at the front of a byte string. -/
def parse (b : Bytes) : Except Fault (Value × Bytes) := (item depthLimit).run b

/-! ## Byte sequences -/

/-- Reads a number below 256, tags before it aside; under a tag for big numbers it is a byte
string. -/
def smallNumber : (rounds : Nat) → Reader UInt8
  | 0 => throw .endsEarly
  | rounds + 1 => do
    match ← readHead with
    | .unsigned n => if n < 256 then return UInt8.ofNat n else throw .meaningless
    | .tag 2 =>
      match ← readHead with
      | .bytes length =>
        let n := Bytes.toNatBE (← readString false length)
        if n < 256 then return UInt8.ofNat n else throw .meaningless
      | _ => throw .meaningless
    | .tag 3 => throw .meaningless
    | .tag _ => smallNumber rounds
    | _ => throw .meaningless

/-- Reads a byte string, or an array of numbers below 256, tags before it aside. -/
def byteSequence : (rounds : Nat) → Reader Bytes
  | 0 => throw .endsEarly
  | rounds + 1 => do
    match ← readHead with
    | .bytes length => readString false length
    | .array length => sequenceOf (do smallNumber ((← get).length + 1)) length
    | .tag _ => byteSequence rounds
    | _ => throw .meaningless

/-- The byte sequence at the front of a byte string. -/
def parseBytes (b : Bytes) : Except Fault Bytes :=
  ((byteSequence (b.length + 1)).run b).map (·.1)

end SealedTx.Cbor
