/-!
# Shortest decimal text of a binary fraction

A double is `m · 2 ^ q` for natural `m`. Among the decimals that round to it, the shortest is
written; of two equally short ones the nearer, and of two equally near ones the larger.

## How the digits are found

The reals that round to the double form an interval around it, whose ends belong to it when `m`
is even. For one digit, two digits and so on the two neighbours of the value on the grid of
decimals with that many digits are tested; the first grid with a neighbour inside the interval
wins. Seventeen digits always suffice. All comparisons are between natural numbers, in units of
`1 / den`.
-/

namespace SealedTx.Decimal

/-- The decimal number `digits · 10 ^ exponent`. -/
structure Scientific where
  digits : Nat
  exponent : Int
deriving DecidableEq, Repr

/-- A value between the ends of its rounding interval, all as multiples of `1 / den`. -/
structure Interval where
  low : Nat
  value : Nat
  high : Nat
  den : Nat
  /-- Whether the ends round to the value too. -/
  closed : Bool

namespace Interval

/-- The interval of `m · 2 ^ q`; `narrow` when the next smaller double is half as far away. -/
def ofBinary (m : Nat) (q : Int) (narrow : Bool) : Interval :=
  let scale := Nat.pow 2 (q - 2).toNat
  { low := (4 * m - if narrow then 1 else 2) * scale
    value := 4 * m * scale
    high := (4 * m + 2) * scale
    den := Nat.pow 2 (2 - q).toNat
    closed := m % 2 = 0 }

/-- The exponent of the leading decimal digit of the value. -/
def leadingExponent (i : Interval) : Int :=
  if i.den ≤ i.value then ((Nat.toDigits 10 (i.value / i.den)).length : Int) - 1
  else
    let c := (i.den + i.value - 1) / i.value
    Int.negOfNat (Nat.toDigits 10 (c - 1)).length

/-- Whether `d · 10 ^ k` rounds to the value. -/
def holds (i : Interval) (d : Nat) (k : Int) : Bool :=
  let x := d * Nat.pow 10 k.toNat * i.den
  let unit := Nat.pow 10 (-k).toNat
  if i.closed then i.low * unit ≤ x && x ≤ i.high * unit
  else i.low * unit < x && x < i.high * unit

/-- The neighbour of the value on the grid of multiples of `10 ^ k` that rounds to the value. If
both do, it is the nearer one, and the upper one when the value is halfway between them. -/
def neighbour? (i : Interval) (k : Int) : Option Nat :=
  let unit := Nat.pow 10 (-k).toNat
  let step := Nat.pow 10 k.toNat * i.den
  let below := i.value * unit / step
  let rest := i.value * unit % step
  match i.holds below k, i.holds (below + 1) k with
  | true, true =>
    if 2 * rest < step then some below else some (below + 1)
  | true, false => some below
  | false, true => some (below + 1)
  | false, false => none

/-- Tries grids with one more digit each, `rounds` of them, starting from the exponent `k`. -/
def search (i : Interval) : (rounds : Nat) → (k : Int) → Scientific
  | 0, k => ⟨i.value * Nat.pow 10 (-k).toNat / (Nat.pow 10 k.toNat * i.den), k⟩
  | rounds + 1, k =>
    match i.neighbour? k with
    | some d => ⟨d, k⟩
    | none => search i rounds (k - 1)

end Interval

/-- Drops the zeros at the end of the digits. -/
def Scientific.normalize (s : Scientific) : Scientific :=
  if _h : s.digits = 0 then ⟨0, 0⟩
  else if s.digits % 10 = 0 then normalize ⟨s.digits / 10, s.exponent + 1⟩
  else s
termination_by s.digits
decreasing_by omega

/-- What a double's bits stand for. -/
inductive Double where
  | notANumber
  | infinite (negative : Bool)
  | zero (negative : Bool)
  /-- The number `m · 2 ^ q`, or its negative. -/
  | finite (negative : Bool) (m : Nat) (q : Int) (narrow : Bool)

/-- Reads the bits of a double. -/
def Double.ofBits (bits : UInt64) : Double :=
  let n := bits.toNat
  let negative := decide (Nat.pow 2 63 ≤ n)
  let exponent : Nat := n / Nat.pow 2 52 % Nat.pow 2 11
  let fraction : Nat := n % Nat.pow 2 52
  if exponent = 2047 then (if fraction = 0 then .infinite negative else .notANumber)
  else if exponent = 0 then
    if fraction = 0 then .zero negative else .finite negative fraction (-1074) false
  else
    .finite negative (Nat.pow 2 52 + fraction) ((exponent : Int) - 1075)
      (decide (fraction = 0 ∧ 1 < exponent))

/-- The shortest decimal that rounds to `m · 2 ^ q`. -/
def shortest (m : Nat) (q : Int) (narrow : Bool) : Scientific :=
  let i := Interval.ofBinary m q narrow
  (i.search 17 i.leadingExponent).normalize

/-! ## Layout -/

/-- How a decimal is laid out. -/
structure Layout where
  /-- The least exponent of the leading digit that is still written positionally. -/
  positionalFrom : Int
  /-- The least exponent of the leading digit that is no longer written positionally. -/
  positionalBelow : Int
  /-- The fewest places after the point in positional text. -/
  places : Nat

/-- The digits with a point before the last `n` of them. -/
def pointed (ds : List Char) (n : Nat) : List Char :=
  let ds := List.replicate (n + 1 - ds.length) '0' ++ ds
  ds.take (ds.length - n) ++ if n = 0 then [] else '.' :: ds.drop (ds.length - n)

/-- The text of a decimal. -/
def Scientific.layOut (s : Scientific) (l : Layout) : List Char :=
  let ds := Nat.toDigits 10 s.digits
  let leading := s.exponent + (ds.length : Int) - 1
  if l.positionalFrom ≤ leading ∧ leading < l.positionalBelow then
    let places := (-s.exponent).toNat
    let ds := ds ++ List.replicate s.exponent.toNat '0'
    pointed (ds ++ List.replicate (l.places - places) '0') (max places l.places)
  else
    pointed ds (ds.length - 1) ++ 'e' :: (toString leading).toList

end SealedTx.Decimal
