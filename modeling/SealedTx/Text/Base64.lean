import SealedTx.Bytes
import SealedTx.Text.Blank

/-!
# Base64 text

The standard alphabet with required padding. Keys, hashes and group ids are shown in it, and
key texts are read from it after a trim of blanks.

## How reading decides

A text of bytes is cut into quads of four. Only the last quad may hold padding, so every quad
that is followed by a further byte is read strictly (`quads`), and the one to four bytes at the
end are read by their own rules (`finish`): two or three symbols need their padding, and the
bits that the last symbol does not use have to be zero.

One error is found before all others: a text that is one byte too long to be made of quads and
ends in a byte that is neither a symbol nor padding is blamed on that byte.
-/

namespace SealedTx.Text.Base64

/-! ## The alphabet -/

/-- The padding byte, an equals sign. -/
def pad : UInt8 := 61

/-- The symbol of a number below 64. -/
def symbol (n : Nat) : UInt8 :=
  UInt8.ofNat <|
    if n < 26 then 65 + n
    else if n < 52 then 97 + (n - 26)
    else if n < 62 then 48 + (n - 52)
    else if n = 62 then 43
    else 47

/-- The number a symbol stands for. -/
def value? (b : UInt8) : Option Nat :=
  let n := b.toNat
  if 65 ≤ n ∧ n ≤ 90 then some (n - 65)
  else if 97 ≤ n ∧ n ≤ 122 then some (n - 97 + 26)
  else if 48 ≤ n ∧ n ≤ 57 then some (n - 48 + 52)
  else if n = 43 then some 62
  else if n = 47 then some 63
  else none

theorem value?_symbol {n : Nat} (h : n < 64) : value? (symbol n) = some n := by
  have key : ∀ m : Fin 64, value? (symbol m.val) = some m.val := by decide
  exact key ⟨n, h⟩

theorem value?_pad : value? pad = none := by decide

theorem value?_lt {b : UInt8} {n : Nat} (h : value? b = some n) : n < 64 := by
  simp only [value?] at h
  repeat' split at h
  all_goals simp at h; try omega

/-! ## Writing -/

/-- The symbols of a byte string, padded to whole quads. -/
def encodeBytes : Bytes → Bytes
  | [] => []
  | [a] => [symbol (a.toNat / 4), symbol (a.toNat % 4 * 16), pad, pad]
  | [a, b] =>
    [symbol (a.toNat / 4), symbol (a.toNat % 4 * 16 + b.toNat / 16),
      symbol (b.toNat % 16 * 4), pad]
  | a :: b :: c :: rest =>
    symbol (a.toNat / 4) :: symbol (a.toNat % 4 * 16 + b.toNat / 16) ::
      symbol (b.toNat % 16 * 4 + c.toNat / 64) :: symbol (c.toNat % 64) :: encodeBytes rest

/-- The Base64 text of a byte string. -/
def encode (b : Bytes) : String :=
  String.ofList ((encodeBytes b).map fun d => Char.ofNat d.toNat)

/-! ## Reading -/

/-- Why a text is not Base64. -/
inductive Error where
  /-- A byte outside the alphabet, or padding where none may stand. -/
  | symbol (byte : UInt8) (offset : Nat)
  /-- A single symbol is left over, which holds less than a byte. -/
  | length (length : Nat)
  /-- The last symbol has bits set that belong to no byte. -/
  | lastSymbol (byte : UInt8) (offset : Nat)
  /-- The padding is missing or too short. -/
  | padding
deriving DecidableEq, Repr

/-- The wording of an error. -/
def Error.message : Error → String
  | .symbol byte offset => s!"Invalid symbol {byte.toNat}, offset {offset}."
  | .length n => s!"Invalid input length: {n}"
  | .lastSymbol byte offset => s!"Invalid last symbol {byte.toNat}, offset {offset}."
  | .padding => "Invalid padding"

/-- The number of the symbol at an offset. -/
def valueAt (offset : Nat) (b : UInt8) : Except Error Nat :=
  match value? b with
  | some n => .ok n
  | none => .error (.symbol b offset)

/-- The three bytes of four symbol values. -/
def join (a b c d : Nat) : Bytes :=
  [UInt8.ofNat (a * 4 + b / 16), UInt8.ofNat (b % 16 * 16 + c / 4), UInt8.ofNat (c % 4 * 64 + d)]

/-- Reads the last one to four bytes of a text, which begin at `offset`. -/
def finish (offset : Nat) : Bytes → Except Error Bytes
  | [] => .ok []
  | [a] => do
    let _ ← valueAt offset a
    .error (.length (offset + 1))
  | [a, b] => do
    let _ ← valueAt offset a
    let _ ← valueAt (offset + 1) b
    .error .padding
  | [a, b, c] => do
    let _ ← valueAt offset a
    let _ ← valueAt (offset + 1) b
    if c ≠ pad then
      let _ ← valueAt (offset + 2) c
    .error .padding
  | a :: b :: c :: d :: _ => do
    let va ← valueAt offset a
    let vb ← valueAt (offset + 1) b
    if c = pad then
      if d ≠ pad then .error (.symbol pad (offset + 2))
      else if vb % 16 ≠ 0 then .error (.lastSymbol b (offset + 1))
      else .ok ((join va vb 0 0).take 1)
    else
      let vc ← valueAt (offset + 2) c
      if d = pad then
        if vc % 4 ≠ 0 then .error (.lastSymbol c (offset + 2))
        else .ok ((join va vb vc 0).take 2)
      else
        let vd ← valueAt (offset + 3) d
        .ok (join va vb vc vd)

/-- Reads the quads of a text from `offset` on. -/
def quads (offset : Nat) : Bytes → Except Error Bytes
  | a :: b :: c :: d :: e :: rest => do
    let va ← valueAt offset a
    let vb ← valueAt (offset + 1) b
    let vc ← valueAt (offset + 2) c
    let vd ← valueAt (offset + 3) d
    let tail ← quads (offset + 4) (e :: rest)
    .ok (join va vb vc vd ++ tail)
  | last => finish offset last

/-- The byte that makes a text one too long, if it is foreign to Base64. -/
def strayEnd? (b : Bytes) : Option Error :=
  if b.length % 4 = 1 then
    match b.getLast? with
    | some last =>
      if last ≠ pad ∧ value? last = none then some (.symbol last (b.length - 1)) else none
    | none => none
  else none

/-- The bytes that Base64 symbols stand for. -/
def decodeBytes (b : Bytes) : Except Error Bytes :=
  match strayEnd? b with
  | some e => .error e
  | none => quads 0 b

/-- The bytes that a Base64 text stands for, blanks at its ends aside. -/
def decode (s : String) : Except Error Bytes := decodeBytes (Bytes.ofText (trim s))

end SealedTx.Text.Base64
