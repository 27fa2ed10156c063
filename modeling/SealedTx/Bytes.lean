/-!
# Byte strings

Everything that is sealed, hashed or sent is a list of bytes. This module holds the type, the
two ways to read a byte string as a number, and the bytes of a text.

The little-endian digits are the ones with a simple recursion; the big-endian ones are their
reverse, so both share one set of lemmas: writing gives the asked number of digits, reading
undoes writing up to the number of digits, and writing undoes reading.
-/

namespace SealedTx

/-- A byte string. -/
abbrev Bytes := List UInt8

namespace Bytes

/-! ## Numbers, least significant byte first -/

/-- The number of byte strings of a width: no number as large as this one fits into it. -/
def values : (width : Nat) → Nat
  | 0 => 1
  | width + 1 => 256 * values width

/-- The `width` lowest base-256 digits of `n`, least significant first. -/
def ofNatLE : (width n : Nat) → Bytes
  | 0, _ => []
  | width + 1, n => UInt8.ofNat n :: ofNatLE width (n / 256)

/-- The number with the given base-256 digits, least significant first. -/
def toNatLE : Bytes → Nat
  | [] => 0
  | d :: ds => d.toNat + 256 * toNatLE ds

@[simp] theorem length_ofNatLE (width n : Nat) : (ofNatLE width n).length = width := by
  induction width generalizing n with
  | zero => rfl
  | succ width ih => simp [ofNatLE, ih]

theorem toNatLE_ofNatLE (width n : Nat) : toNatLE (ofNatLE width n) = n % values width := by
  induction width generalizing n with
  | zero => simp [ofNatLE, toNatLE, values, Nat.mod_one]
  | succ width ih =>
    rw [ofNatLE, toNatLE, ih, values, Nat.mod_mul]
    simp

theorem ofNatLE_toNatLE (b : Bytes) : ofNatLE b.length (toNatLE b) = b := by
  induction b with
  | nil => rfl
  | cons d ds ih =>
    have hd : d.toNat < 256 := UInt8.toNat_lt_size d
    rw [List.length_cons, toNatLE, ofNatLE]
    congr 1
    · apply UInt8.toNat_inj.1
      simp
    · rw [show (d.toNat + 256 * toNatLE ds) / 256 = toNatLE ds by omega, ih]

theorem toNatLE_lt (b : Bytes) : toNatLE b < values b.length := by
  induction b with
  | nil => simp [toNatLE, values]
  | cons d ds ih =>
    have hd : d.toNat < 256 := UInt8.toNat_lt_size d
    rw [toNatLE, List.length_cons, values]
    omega

/-! ## Numbers, most significant byte first -/

/-- The `width` lowest base-256 digits of `n`, most significant first. -/
def ofNatBE (width n : Nat) : Bytes := (ofNatLE width n).reverse

/-- The number with the given base-256 digits, most significant first. -/
def toNatBE (b : Bytes) : Nat := toNatLE b.reverse

@[simp] theorem length_ofNatBE (width n : Nat) : (ofNatBE width n).length = width := by
  simp [ofNatBE]

theorem toNatBE_ofNatBE (width n : Nat) : toNatBE (ofNatBE width n) = n % values width := by
  simp [toNatBE, ofNatBE, toNatLE_ofNatLE]

theorem ofNatBE_toNatBE (b : Bytes) : ofNatBE b.length (toNatBE b) = b := by
  have h := ofNatLE_toNatLE b.reverse
  rw [List.length_reverse] at h
  simp [ofNatBE, toNatBE, h]

theorem toNatBE_lt (b : Bytes) : toNatBE b < values b.length := by
  have h := toNatLE_lt b.reverse
  rwa [List.length_reverse] at h

/-! ## Text -/

/-- The UTF-8 bytes of a text. -/
def ofText (s : String) : Bytes := s.toByteArray.data.toList

/-- The text whose UTF-8 bytes are given, if they are well formed. -/
def toText? (b : Bytes) : Option String := String.fromUTF8? ⟨b.toArray⟩

@[simp] theorem toText?_ofText (s : String) : toText? (ofText s) = some s := by
  unfold toText? ofText String.fromUTF8?
  simp [s.isValidUTF8, String.fromUTF8]

/-- Different texts have different bytes. -/
theorem ofText_inj {s t : String} : ofText s = ofText t ↔ s = t := by
  constructor
  · intro h
    have hs := toText?_ofText s
    rw [h, toText?_ofText] at hs
    exact (Option.some.inj hs).symm
  · exact congrArg ofText

theorem ofText_of_toText? {b : Bytes} {s : String} (h : toText? b = some s) : ofText s = b := by
  unfold toText? String.fromUTF8? at h
  split at h
  · simp only [Option.some.injEq] at h
    subst h
    simp [ofText, String.fromUTF8]
  · simp at h

/-! ## Combination -/

/-- The bytewise exclusive or, as long as the shorter argument. -/
def xor (a b : Bytes) : Bytes := List.zipWith (· ^^^ ·) a b

/-- The bytes cut into pieces of `size`, the last one shorter when they do not fit. -/
def chunks (size : Nat) (b : Bytes) : List Bytes :=
  if _h : b = [] ∨ size = 0 then []
  else b.take size :: chunks size (b.drop size)
termination_by b.length
decreasing_by
  have : b.length ≠ 0 := fun e => _h (Or.inl (List.eq_nil_of_length_eq_zero e))
  simp only [List.length_drop]
  omega

end Bytes

end SealedTx
