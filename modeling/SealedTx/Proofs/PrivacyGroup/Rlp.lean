import SealedTx.PrivacyGroup.Rlp

/-!
# Lists of strings are told apart by their bytes

The first byte of a string says how to read on: it is the string itself, or its length, or the
length of its length. So a string can be taken off the front of whatever follows it
(`readString?_string`), none is the beginning of another one (`string_append_inj`), and the strings
of a list are determined by their bytes one after the other (`flatMap_string_inj`).

The first byte leaves room for eight digits of length, and strings are shorter than that allows
(`lengthLimit`). The bytes of a whole list need no such bound: their number alone tells how many of
them are the prefix (`list_inj`).
-/

namespace SealedTx.Rlp

/-- The lengths of strings are below this number, the first that has nine digits. -/
def lengthLimit : Nat := 0x10000000000000000

/-! ## Digits -/

theorem digits_zero : digits 0 = [] := by simp [digits]

theorem digits_of_pos {n : Nat} (h : 0 < n) : digits n = digits (n / 256) ++ [UInt8.ofNat n] := by
  rw [digits, dif_neg (by omega)]

theorem toNatBE_concat (b : Bytes) (d : UInt8) :
    Bytes.toNatBE (b ++ [d]) = d.toNat + 256 * Bytes.toNatBE b := by
  simp [Bytes.toNatBE, Bytes.toNatLE]

/-- The digits of a number are read as the number. -/
theorem toNatBE_digits (n : Nat) : Bytes.toNatBE (digits n) = n := by
  induction n using digits.induct with
  | case1 => simp [digits_zero, Bytes.toNatBE, Bytes.toNatLE]
  | case2 n hn ih =>
    rw [digits_of_pos (by omega), toNatBE_concat, ih]
    simp
    omega

theorem length_digits_le {width : Nat} : ∀ {n : Nat}, n < Bytes.values width →
    (digits n).length ≤ width := by
  induction width with
  | zero =>
    intro n hn
    obtain rfl : n = 0 := by simpa [Bytes.values] using hn
    simp [digits_zero]
  | succ width ih =>
    intro n hn
    rcases Nat.eq_zero_or_pos n with rfl | hpos
    · simp [digits_zero]
    · have hdiv : n / 256 < Bytes.values width := Nat.div_lt_of_lt_mul hn
      have := ih hdiv
      rw [digits_of_pos hpos]
      simpa using this

theorem length_digits_mono {m n : Nat} (h : m ≤ n) : (digits m).length ≤ (digits n).length := by
  induction n using digits.induct generalizing m with
  | case1 =>
    obtain rfl : m = 0 := by omega
    exact Nat.le_refl _
  | case2 n hn ih =>
    rcases Nat.eq_zero_or_pos m with rfl | hpos
    · simp [digits_zero]
    · have hn : 0 < n := Nat.lt_of_lt_of_le hpos h
      have := ih (Nat.div_le_div_right h : m / 256 ≤ n / 256)
      rw [digits_of_pos hpos, digits_of_pos hn]
      simpa using this

/-! ## Strings -/

/-- The string at the front of some bytes, and the bytes behind it. -/
def readString? : Bytes → Option (Bytes × Bytes)
  | [] => none
  | d :: rest =>
    if d.toNat < 0x80 then some ([d], rest)
    else if d.toNat < 0x80 + 56 then some (rest.splitAt (d.toNat - 0x80))
    else
      let size := d.toNat - (0x80 + 55)
      some ((rest.drop size).splitAt (Bytes.toNatBE (rest.take size)))

theorem string_of_small {d : UInt8} (h : d.toNat < 0x80) : string [d] = [d] := by
  have hd : d < 0x80 := h
  simp [string, hd]

theorem string_of_not_small {b : Bytes} (h : ∀ d, b = [d] → ¬ d.toNat < 0x80) :
    string b = lengthPrefix 0x80 b.length ++ b := by
  unfold string
  split
  next d =>
    have hd : ¬ d < 0x80 := h d rfl
    rw [if_neg hd]
    rfl
  next => rfl

/-- **A string is read off the front** of whatever follows it. -/
theorem readString?_string {b : Bytes} (h : b.length < lengthLimit) (rest : Bytes) :
    readString? (string b ++ rest) = some (b, rest) := by
  by_cases hsmall : ∃ d, b = [d] ∧ d.toNat < 0x80
  · obtain ⟨d, rfl, hd⟩ := hsmall
    simp [string_of_small hd, readString?, hd]
  rw [string_of_not_small fun d hb hd => hsmall ⟨d, hb, hd⟩, lengthPrefix, List.append_assoc]
  split
  next hlt =>
    have hfirst : (UInt8.ofNat (0x80 + b.length)).toNat = 0x80 + b.length := by
      simp
      omega
    rw [List.singleton_append, readString?, hfirst, if_neg (by omega), if_pos (by omega)]
    simp
  next hge =>
    have hsize : (digits b.length).length ≤ 8 := length_digits_le h
    have hpos : 0 < (digits b.length).length := by
      rw [digits_of_pos (by omega)]
      simp
    have hfirst : (UInt8.ofNat (0x80 + 55 + (digits b.length).length)).toNat =
        0x80 + 55 + (digits b.length).length := by
      simp
      omega
    rw [List.cons_append, readString?, hfirst, if_neg (by omega), if_neg (by omega)]
    simp [toNatBE_digits]

/-- **No string is the beginning of another one.** -/
theorem string_append_inj {a b x y : Bytes} (ha : a.length < lengthLimit)
    (hb : b.length < lengthLimit) (h : string a ++ x = string b ++ y) : a = b ∧ x = y := by
  have hread := congrArg readString? h
  rw [readString?_string ha, readString?_string hb] at hread
  simpa using hread

theorem string_ne_nil {b : Bytes} (h : b.length < lengthLimit) : string b ≠ [] := by
  intro hb
  have hread := readString?_string h []
  rw [hb] at hread
  exact nomatch hread

/-! ## Lists -/

theorem flatMap_string_inj : ∀ {a b : List Bytes}, (∀ s ∈ a, s.length < lengthLimit) →
    (∀ s ∈ b, s.length < lengthLimit) → a.flatMap string = b.flatMap string → a = b
  | [], [], _, _, _ => rfl
  | [], s :: b, _, hb, h => by
    rw [List.flatMap_nil, List.flatMap_cons] at h
    exact absurd (List.append_eq_nil_iff.1 h.symm).1 (string_ne_nil (hb s List.mem_cons_self))
  | s :: a, [], ha, _, h => by
    rw [List.flatMap_nil, List.flatMap_cons] at h
    exact absurd (List.append_eq_nil_iff.1 h).1 (string_ne_nil (ha s List.mem_cons_self))
  | s :: a, t :: b, ha, hb, h => by
    rw [List.flatMap_cons, List.flatMap_cons] at h
    obtain ⟨rfl, hrest⟩ :=
      string_append_inj (ha s List.mem_cons_self) (hb t List.mem_cons_self) h
    rw [flatMap_string_inj (fun x hx => ha x (List.mem_cons_of_mem _ hx))
      (fun x hx => hb x (List.mem_cons_of_mem _ hx)) hrest]

theorem length_lengthPrefix_mono (base : Nat) {m n : Nat} (h : m ≤ n) :
    (lengthPrefix base m).length ≤ (lengthPrefix base n).length := by
  have hdigits := length_digits_mono h
  unfold lengthPrefix
  split <;> split <;> simp <;> omega

/-- The bytes of a list tell those of its strings, however long these are. -/
theorem flatMap_string_eq_of_list_eq {a b : List Bytes} (h : list a = list b) :
    a.flatMap string = b.flatMap string := by
  simp only [list] at h
  generalize a.flatMap string = body at h ⊢
  generalize b.flatMap string = body' at h ⊢
  -- a longer body has no shorter prefix, so bytes of one length have bodies of one length
  have hlength : body.length = body'.length := by
    have htotal := congrArg List.length h
    rw [List.length_append, List.length_append] at htotal
    rcases Nat.lt_trichotomy body.length body'.length with hlt | heq | hgt
    · have := length_lengthPrefix_mono 0xC0 (Nat.le_of_lt hlt)
      omega
    · exact heq
    · have := length_lengthPrefix_mono 0xC0 (Nat.le_of_lt hgt)
      omega
  rw [hlength] at h
  exact List.append_cancel_left h

/-- **A list is determined by its bytes.** -/
theorem list_inj {a b : List Bytes} (ha : ∀ s ∈ a, s.length < lengthLimit)
    (hb : ∀ s ∈ b, s.length < lengthLimit) (h : list a = list b) : a = b :=
  flatMap_string_inj ha hb (flatMap_string_eq_of_list_eq h)

end SealedTx.Rlp
