import SealedTx.Bytes

/-!
# Key agreement on Curve25519

Two owners agree on a secret: each multiplies the other's point by its own scalar. Points are
known by one coordinate, as a fraction `x / z` of numbers below the prime, and the ladder keeps
two multiples of the point that differ by the point itself.
-/

namespace SealedTx.X25519

/-- The prime of the field. -/
def prime : Nat := Nat.pow 2 255 - 19

/-- The constant of the doubling formula. -/
def a24 : Nat := 121665

/-- The sum in the field. -/
def add (a b : Nat) : Nat := (a + b) % prime

/-- The difference in the field, for numbers below the prime. -/
def sub (a b : Nat) : Nat := (a + prime - b) % prime

/-- The product in the field. -/
def mul (a b : Nat) : Nat := a * b % prime

/-- The power in the field, over the `bits` lowest bits of the exponent. -/
def pow (a : Nat) : (bits : Nat) → (exponent : Nat) → Nat
  | 0, _ => 1
  | bits + 1, exponent =>
    let half := pow (mul a a) bits (exponent / 2)
    if exponent % 2 = 1 then mul a half else half

/-- The inverse in the field; that of zero is zero. -/
def inverse (a : Nat) : Nat := pow a 255 (prime - 2)

/-- A coordinate as a fraction. -/
structure Fraction where
  x : Nat
  z : Nat

namespace Fraction

/-- Twice a point. -/
def double (p : Fraction) : Fraction :=
  let s := mul (add p.x p.z) (add p.x p.z)
  let d := mul (sub p.x p.z) (sub p.x p.z)
  let e := sub s d
  ⟨mul s d, mul e (add s (mul a24 e))⟩

/-- The sum of two points whose difference has the coordinate `u`. -/
def sum (u : Nat) (p q : Fraction) : Fraction :=
  let a := mul (sub p.x p.z) (add q.x q.z)
  let b := mul (add p.x p.z) (sub q.x q.z)
  ⟨mul (add a b) (add a b), mul u (mul (sub a b) (sub a b))⟩

end Fraction

/-- The ladder over the `bits` lowest bits of the scalar, the highest of them first. -/
def ladder (u scalar : Nat) : (bits : Nat) → Fraction × Fraction → Fraction × Fraction
  | 0, pair => pair
  | bits + 1, (p, q) =>
    let both := p.sum u q
    ladder u scalar bits
      (if scalar / Nat.pow 2 bits % 2 = 0 then (p.double, both) else (both, q.double))

/-- The scalar of a private key: a multiple of eight with its highest bit fixed. -/
def scalar (key : Bytes) : Nat := Bytes.toNatLE key % Nat.pow 2 254 / 8 * 8 + Nat.pow 2 254

/-- The coordinate of a public key, whose highest bit does not count. -/
def coordinate (key : Bytes) : Nat := Bytes.toNatLE key % Nat.pow 2 255 % prime

/-- The secret that the owner of a private key shares with that of a public key. -/
def agree (privateKey publicKey : Bytes) : Bytes :=
  let u := coordinate publicKey
  let (p, _) := ladder u (scalar privateKey) 255 (⟨1, 0⟩, ⟨u, 1⟩)
  Bytes.ofNatLE 32 (mul p.x (inverse p.z))

/-- The public key of a private key: its multiple of the base point. -/
def publicKey (privateKey : Bytes) : Bytes := agree privateKey (Bytes.ofNatLE 32 9)

end SealedTx.X25519
