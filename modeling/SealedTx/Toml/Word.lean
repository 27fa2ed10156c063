import SealedTx.Text.Hex
import SealedTx.Toml.Scanner
import SealedTx.Toml.Value

/-!
# Bare words

Values that stand without quotes: truth values, numbers, dates and times. The longest run of
characters that such a value may hold is one word, and `ofWord?` tells what it is. Nothing that
may follow a value is such a character, so a value never ends within its word. Only a date takes
a second word, a time of day, after a single space.
-/

namespace SealedTx.Toml

open SealedTx.Text (hexValue?)

/-! ## Digits -/

/-- Digits without the underscores that stand between two of them. -/
def grouped? (isDigit : Char → Bool) : List Char → Option (List Char)
  | [] => none
  | [d] => if isDigit d then some [d] else none
  | d :: '_' :: rest => if isDigit d then (d :: ·) <$> grouped? isDigit rest else none
  | d :: rest => if isDigit d then (d :: ·) <$> grouped? isDigit rest else none

/-- The number that digits stand for. -/
def number (base : Nat) (ds : List Char) : Nat :=
  ds.foldl (fun n d => n * base + (hexValue? d).getD 0) 0

/-- The number of decimal digits. -/
def decimal (ds : List Char) : Nat := number 10 ds

/-- Decimal digits of a number, which begin with a zero only if they are no more than that. -/
def plainDigits? (cs : List Char) : Option (List Char) :=
  (grouped? Char.isDigit cs).filter fun _ => cs.head? ≠ some '0' || cs = ['0']

/-- A sign that may stand first, as whether it is a minus, and the rest. -/
def signed : List Char → Bool × List Char
  | '-' :: rest => (true, rest)
  | '+' :: rest => (false, rest)
  | cs => (false, cs)

/-! ## Integers -/

/-- Whether a digit is one of the base. -/
def isDigitOf (base : Nat) (c : Char) : Bool :=
  match hexValue? c with
  | some n => n < base
  | none => false

/-- The integer that a word is, whatever its size. -/
def anyInteger? : List Char → Option Int
  | '0' :: 'x' :: ds => (grouped? (isDigitOf 16) ds).map fun ds => (number 16 ds : Int)
  | '0' :: 'o' :: ds => (grouped? (isDigitOf 8) ds).map fun ds => (number 8 ds : Int)
  | '0' :: 'b' :: ds => (grouped? (isDigitOf 2) ds).map fun ds => (number 2 ds : Int)
  | cs =>
    let (isNegative, ds) := signed cs
    (plainDigits? ds).map fun ds => if isNegative then -(decimal ds : Int) else (decimal ds : Int)

/-- The integer of at most 64 bits that a word is. -/
def integer? (cs : List Char) : Option Int :=
  (anyInteger? cs).filter fun n => -0x8000000000000000 ≤ n && n < 0x8000000000000000

/-! ## Numbers with a fraction -/

/-- The least number that is too large for a double: half a unit above the largest one. -/
def overflowBound : Nat := Nat.pow 2 1024 - Nat.pow 2 970

/-- Whether `m * 10 ^ e` is too large for a double. -/
def overflows (m : Nat) (e : Int) : Bool :=
  let size : Int := (Nat.toDigits 10 m).length + e
  if m = 0 ∨ size < 300 then false
  else if 400 < size then true
  else if 0 ≤ e then overflowBound ≤ m * Nat.pow 10 e.toNat
  else overflowBound * Nat.pow 10 (-e).toNat ≤ m

/-- The digits behind a point, if one comes first, and the rest; a point needs digits. -/
def fraction? : List Char → Option (Option (List Char) × List Char)
  | '.' :: rest =>
    let (ds, rest) := rest.span fun c => c ≠ 'e' && c ≠ 'E'
    return (some (← grouped? Char.isDigit ds), rest)
  | cs => some (none, cs)

/-- The exponent of a number, if there is one; it needs digits. -/
def exponent? : List Char → Option (Option Int)
  | [] => some none
  | c :: rest =>
    if c = 'e' ∨ c = 'E' then do
      let (isNegative, ds) := signed rest
      let n := decimal (← grouped? Char.isDigit ds)
      return some (if isNegative then -(n : Int) else n)
    else none

/-- Whether a word without its sign is a number with a fraction or an exponent. One that is too
large for a double is none, unless it is negative. -/
def isDecimal (isNegative : Bool) (cs : List Char) : Bool :=
  let (whole, rest) := cs.span fun c => c ≠ '.' && c ≠ 'e' && c ≠ 'E'
  match plainDigits? whole, fraction? rest with
  | some whole, some (fraction, rest) =>
    match exponent? rest with
    | some exponent =>
      let digits := fraction.getD []
      (fraction.isSome || exponent.isSome) &&
        (isNegative || !overflows (decimal (whole ++ digits)) (exponent.getD 0 - digits.length))
    | none => false
  | _, _ => false

/-- Whether a word is a number with a fraction or an exponent, an infinity, or none. -/
def isFloat (cs : List Char) : Bool :=
  let (isNegative, rest) := signed cs
  rest = ['i', 'n', 'f'] || rest = ['n', 'a', 'n'] || isDecimal isNegative rest

/-! ## Dates and times -/

/-- The number of two digits, if it is in a range. -/
def twoDigits? (low high : Nat) (a b : Char) : Option Nat :=
  if a.isDigit && b.isDigit then (some (decimal [a, b])).filter fun n => low ≤ n && n ≤ high
  else none

/-- The number of days in a month. -/
def daysIn (year month : Nat) : Nat :=
  if month = 2 then
    if year % 4 = 0 ∧ (year % 100 ≠ 0 ∨ year % 400 = 0) then 29 else 28
  else if month = 4 ∨ month = 6 ∨ month = 9 ∨ month = 11 then 30
  else 31

/-- The rest behind a date. -/
def date? : List Char → Option (List Char)
  | a :: b :: c :: d :: '-' :: m :: n :: '-' :: x :: y :: rest => do
    if ¬ [a, b, c, d].all Char.isDigit then none
    let month ← twoDigits? 1 12 m n
    let _ ← twoDigits? 1 (daysIn (decimal [a, b, c, d]) month) x y
    return rest
  | _ => none

/-- The rest behind the part of a second, if one comes first; its point needs digits. -/
def secondPart? : List Char → Option (List Char)
  | '.' :: d :: rest => if d.isDigit then some (rest.dropWhile Char.isDigit) else none
  | '.' :: [] => none
  | cs => some cs

/-- The rest behind a time of day. -/
def timeOfDay? : List Char → Option (List Char)
  | a :: b :: ':' :: c :: d :: ':' :: e :: f :: rest => do
    let _ ← twoDigits? 0 23 a b
    let _ ← twoDigits? 0 59 c d
    let _ ← twoDigits? 0 60 e f
    secondPart? rest
  | _ => none

/-- Whether characters are an offset from universal time, or nothing. -/
def isOffset : List Char → Bool
  | [] => true
  | ['Z'] | ['z'] => true
  | [s, a, b, ':', c, d] =>
    (s = '+' || s = '-') && (twoDigits? 0 23 a b).isSome && (twoDigits? 0 59 c d).isSome
  | _ => false

/-- Whether a word is a time of day with an offset or without. -/
def isClock (cs : List Char) : Bool :=
  match timeOfDay? cs with
  | some rest => isOffset rest
  | none => false

/-- Whether a word is a date. -/
def isDate (cs : List Char) : Bool := date? cs = some []

/-- Whether a word is a date with a time of day, or a time of day without an offset. -/
def isTime (cs : List Char) : Bool :=
  match date? cs with
  | some ('T' :: rest) | some ('t' :: rest) => isClock rest
  | _ => timeOfDay? cs = some []

/-! ## Words -/

/-- Whether a character may stand in a bare word. -/
def isWordChar (c : Char) : Bool :=
  c.isAlphanum || c = '+' || c = '-' || c = '_' || c = '.' || c = ':'

/-- The value that a word is. -/
def ofWord? (cs : List Char) : Option Value :=
  if cs = ['t', 'r', 'u', 'e'] then some (.boolean true)
  else if cs = ['f', 'a', 'l', 's', 'e'] then some (.boolean false)
  else if isDate cs || isTime cs then some .time
  else if isFloat cs then some .float
  else (integer? cs).map .integer

/-- Takes a value without quotes. -/
def bareValue : Scanner Value := fun cs =>
  let (word, rest) := cs.span isWordChar
  match isDate word, rest with
  | true, ' ' :: rest' =>
    let (clock, rest'') := rest'.span isWordChar
    if clock = [] then some (.time, rest)
    else if isClock clock then some (.time, rest'')
    else none
  | _, _ => (ofWord? word).map fun v => (v, rest)

end SealedTx.Toml
