import SealedTx.Error
import SealedTx.Proofs.Outcome

/-!
# The Base64 round trip

Writing bytes in Base64 and reading the text gives the bytes back, and no other text is read as
them, but for blanks at its ends (`decode_eq_ok_iff`).

There are two layers. On symbols, a quad holds three bytes: the four values joined are the bytes
they were cut from (`quads_encodeBytes`), and cut again they are the values (`encodeBytes_join`). On
text, every symbol is a character of one byte that is not blank, so neither the trim (`trim_encode`)
nor the way through characters (`ofText_encode`) changes anything.
-/

namespace SealedTx.Text.Base64

open Outcome

/-! ## Symbols -/

/-- What may stand in a Base64 text: a symbol or the padding. -/
def IsSymbol (d : UInt8) : Prop := d = pad ∨ ∃ n < 64, d = symbol n

theorem isSymbol_symbol {n : Nat} (h : n < 64) : IsSymbol (symbol n) := .inr ⟨n, h, rfl⟩

theorem isSymbol_pad : IsSymbol pad := .inl rfl

/-- All that is written are symbols and padding. -/
theorem isSymbol_of_mem : ∀ {b : Bytes}, ∀ d ∈ encodeBytes b, IsSymbol d
  | [], d, h => nomatch h
  | [a], d, h => by
    have ha : a.toNat < 256 := UInt8.toNat_lt_size a
    simp only [encodeBytes, List.mem_cons, List.not_mem_nil, or_false] at h
    rcases h with rfl | rfl | rfl | rfl
    · exact isSymbol_symbol (by omega)
    · exact isSymbol_symbol (by omega)
    · exact isSymbol_pad
    · exact isSymbol_pad
  | [a, b], d, h => by
    have ha : a.toNat < 256 := UInt8.toNat_lt_size a
    have hb : b.toNat < 256 := UInt8.toNat_lt_size b
    simp only [encodeBytes, List.mem_cons, List.not_mem_nil, or_false] at h
    rcases h with rfl | rfl | rfl | rfl
    · exact isSymbol_symbol (by omega)
    · exact isSymbol_symbol (by omega)
    · exact isSymbol_symbol (by omega)
    · exact isSymbol_pad
  | a :: b :: c :: rest, d, h => by
    have ha : a.toNat < 256 := UInt8.toNat_lt_size a
    have hb : b.toNat < 256 := UInt8.toNat_lt_size b
    have hc : c.toNat < 256 := UInt8.toNat_lt_size c
    simp only [encodeBytes, List.mem_cons] at h
    rcases h with rfl | rfl | rfl | rfl | h
    · exact isSymbol_symbol (by omega)
    · exact isSymbol_symbol (by omega)
    · exact isSymbol_symbol (by omega)
    · exact isSymbol_symbol (by omega)
    · exact isSymbol_of_mem d h

theorem valueAt_symbol (offset : Nat) {n : Nat} (h : n < 64) :
    valueAt offset (symbol n) = .ok n := by
  rw [valueAt, value?_symbol h]

theorem symbol_ne_pad {n : Nat} (h : n < 64) : symbol n ≠ pad := by
  intro e
  have hv := value?_symbol h
  rw [e, value?_pad] at hv
  exact nomatch hv

/-! ## Quads -/

/-- The values of a quad, joined, are the bytes that they were cut from. -/
theorem join_cut (a b c : UInt8) :
    join (a.toNat / 4) (a.toNat % 4 * 16 + b.toNat / 16) (b.toNat % 16 * 4 + c.toNat / 64)
      (c.toNat % 64) = [a, b, c] := by
  have hb : b.toNat < 256 := UInt8.toNat_lt_size b
  have hc : c.toNat < 256 := UInt8.toNat_lt_size c
  have h1 : a.toNat / 4 * 4 + (a.toNat % 4 * 16 + b.toNat / 16) / 16 = a.toNat := by omega
  have h2 : (a.toNat % 4 * 16 + b.toNat / 16) % 16 * 16 + (b.toNat % 16 * 4 + c.toNat / 64) / 4
      = b.toNat := by omega
  have h3 : (b.toNat % 16 * 4 + c.toNat / 64) % 4 * 64 + c.toNat % 64 = c.toNat := by omega
  rw [join, h1, h2, h3, UInt8.ofNat_toNat, UInt8.ofNat_toNat, UInt8.ofNat_toNat]

theorem finish_one (offset : Nat) (a : UInt8) : finish offset (encodeBytes [a]) = .ok [a] := by
  have ha : a.toNat < 256 := UInt8.toNat_lt_size a
  -- the bits that no byte fills are written as zeros
  have h := join_cut a 0 0
  simp only [UInt8.toNat_zero, Nat.zero_div, Nat.zero_mod, Nat.add_zero, Nat.zero_mul] at h
  rw [encodeBytes, finish, valueAt_symbol _ (by omega), valueAt_symbol _ (by omega)]
  simp only [bind, Except.bind, ne_eq, not_true_eq_false, if_true, if_false]
  rw [if_neg (by omega), h]
  rfl

theorem finish_two (offset : Nat) (a b : UInt8) :
    finish offset (encodeBytes [a, b]) = .ok [a, b] := by
  have ha : a.toNat < 256 := UInt8.toNat_lt_size a
  have hb : b.toNat < 256 := UInt8.toNat_lt_size b
  have h := join_cut a b 0
  simp only [UInt8.toNat_zero, Nat.zero_div, Nat.zero_mod, Nat.add_zero] at h
  rw [encodeBytes, finish, valueAt_symbol _ (by omega), valueAt_symbol _ (by omega)]
  simp only [bind, Except.bind, if_true]
  rw [if_neg (symbol_ne_pad (by omega)), valueAt_symbol _ (by omega)]
  dsimp only
  rw [if_neg (by omega), h]
  rfl

theorem finish_three (offset : Nat) (a b c : UInt8) :
    finish offset (encodeBytes [a, b, c]) = .ok [a, b, c] := by
  have ha : a.toNat < 256 := UInt8.toNat_lt_size a
  have hb : b.toNat < 256 := UInt8.toNat_lt_size b
  have hc : c.toNat < 256 := UInt8.toNat_lt_size c
  rw [encodeBytes, encodeBytes, finish, valueAt_symbol _ (by omega),
    valueAt_symbol _ (by omega)]
  simp only [bind, Except.bind]
  rw [if_neg (symbol_ne_pad (by omega)), valueAt_symbol _ (by omega)]
  dsimp only
  rw [if_neg (symbol_ne_pad (by omega)), valueAt_symbol _ (by omega)]
  dsimp only
  rw [join_cut]

theorem encodeBytes_ne_nil : ∀ {b : Bytes}, b ≠ [] → encodeBytes b ≠ []
  | [], h => absurd rfl h
  | [_], _ => List.cons_ne_nil _ _
  | [_, _], _ => List.cons_ne_nil _ _
  | _ :: _ :: _ :: _, _ => List.cons_ne_nil _ _

/-- **The symbols of a byte string are read as the byte string**, from any offset on. -/
theorem quads_encodeBytes : ∀ (b : Bytes) (offset : Nat), quads offset (encodeBytes b) = .ok b
  | [], _ => rfl
  | [a], offset => finish_one offset a
  | [a, b], offset => finish_two offset a b
  | [a, b, c], offset => finish_three offset a b c
  | a :: b :: c :: d :: rest, offset => by
    have ha : a.toNat < 256 := UInt8.toNat_lt_size a
    have hb : b.toNat < 256 := UInt8.toNat_lt_size b
    have hc : c.toNat < 256 := UInt8.toNat_lt_size c
    have ih := quads_encodeBytes (d :: rest) (offset + 4)
    rw [encodeBytes]
    -- another quad follows, so this one is not read as the last one is
    obtain ⟨e, tail, he⟩ := List.exists_cons_of_ne_nil
      (encodeBytes_ne_nil (List.cons_ne_nil d rest))
    rw [he] at ih ⊢
    rw [quads, valueAt_symbol _ (by omega), valueAt_symbol _ (by omega),
      valueAt_symbol _ (by omega), valueAt_symbol _ (by omega), ih]
    simp only [bind, Except.bind]
    rw [join_cut, List.cons_append, List.cons_append, List.singleton_append]

theorem length_encodeBytes : ∀ b : Bytes, (encodeBytes b).length = (b.length + 2) / 3 * 4
  | [] | [_] | [_, _] => by simp [encodeBytes]
  | _ :: _ :: _ :: rest => by
    have ih := length_encodeBytes rest
    simp only [encodeBytes, List.length_cons]
    omega

theorem decodeBytes_encodeBytes (b : Bytes) : decodeBytes (encodeBytes b) = .ok b := by
  have hlen := length_encodeBytes b
  have hstray : strayEnd? (encodeBytes b) = none := if_neg (by omega)
  rw [decodeBytes, hstray]
  exact quads_encodeBytes b 0

/-! ## What is accepted -/

/-- No two bytes stand for one number. -/
theorem eq_symbol_of_value? {d : UInt8} {n : Nat} (h : value? d = some n) : d = symbol n := by
  have key : ∀ m : Fin 256, ∀ n ∈ value? (UInt8.ofNat m), UInt8.ofNat m = symbol n := by
    decide +kernel
  have hd := key ⟨d.toNat, UInt8.toNat_lt_size d⟩ n
  rw [UInt8.ofNat_toNat] at hd
  exact hd h

theorem valueAt_eq_ok_iff {offset n : Nat} {d : UInt8} :
    valueAt offset d = .ok n ↔ n < 64 ∧ d = symbol n := by
  constructor
  · intro h
    unfold valueAt at h
    split at h
    next m hm =>
      cases h
      exact ⟨value?_lt hm, eq_symbol_of_value? hm⟩
    next => cases h
  · rintro ⟨hn, rfl⟩
    exact valueAt_symbol offset hn

/-- A step that begins with a symbol goes on with its number. -/
theorem valueAt_bind_eq_ok_iff {offset : Nat} {d : UInt8} {f : Nat → Except Error Bytes}
    {c : Bytes} : valueAt offset d >>= f = .ok c ↔ ∃ n < 64, d = symbol n ∧ f n = .ok c := by
  rw [bind_eq_ok_iff]
  simp only [valueAt_eq_ok_iff, and_assoc]

section Join

variable {va vb vc vd : Nat}

theorem toNat_ofNat {n : Nat} (h : n < 256) : (UInt8.ofNat n).toNat = n :=
  UInt8.toNat_ofNat_of_lt' h

/-- Bytes that four values were joined to are cut into the values again. -/
theorem encodeBytes_join (ha : va < 64) (hb : vb < 64) (hc : vc < 64) (hd : vd < 64)
    (rest : Bytes) : encodeBytes (join va vb vc vd ++ rest) =
      symbol va :: symbol vb :: symbol vc :: symbol vd :: encodeBytes rest := by
  rw [join, List.cons_append, List.cons_append, List.cons_append, List.nil_append, encodeBytes,
    toNat_ofNat (by omega), toNat_ofNat (by omega), toNat_ofNat (by omega)]
  have h1 : (va * 4 + vb / 16) / 4 = va := by omega
  have h2 : (va * 4 + vb / 16) % 4 * 16 + (vb % 16 * 16 + vc / 4) / 16 = vb := by omega
  have h3 : (vb % 16 * 16 + vc / 4) % 16 * 4 + (vc % 4 * 64 + vd) / 64 = vc := by omega
  have h4 : (vc % 4 * 64 + vd) % 64 = vd := by omega
  rw [h1, h2, h3, h4]

theorem encodeBytes_join_one (ha : va < 64) (hb : vb < 64) (hzero : vb % 16 = 0) :
    encodeBytes ((join va vb 0 0).take 1) = [symbol va, symbol vb, pad, pad] := by
  rw [join, List.take_succ_cons, List.take_zero, encodeBytes, toNat_ofNat (by omega)]
  have h1 : (va * 4 + vb / 16) / 4 = va := by omega
  have h2 : (va * 4 + vb / 16) % 4 * 16 = vb := by omega
  rw [h1, h2]

theorem encodeBytes_join_two (ha : va < 64) (hb : vb < 64) (hc : vc < 64) (hzero : vc % 4 = 0) :
    encodeBytes ((join va vb vc 0).take 2) = [symbol va, symbol vb, symbol vc, pad] := by
  rw [join, List.take_succ_cons, List.take_succ_cons, List.take_zero, encodeBytes,
    toNat_ofNat (by omega), toNat_ofNat (by omega)]
  have h1 : (va * 4 + vb / 16) / 4 = va := by omega
  have h2 : (va * 4 + vb / 16) % 4 * 16 + (vb % 16 * 16 + vc / 4) / 16 = vb := by omega
  have h3 : (vb % 16 * 16 + vc / 4) % 16 * 4 = vc := by omega
  rw [h1, h2, h3]

end Join

/-- The last quad is the one that is written for the bytes that it is read as. -/
theorem encodeBytes_of_finish {offset : Nat} : ∀ {b c : Bytes}, b.length ≤ 4 →
    finish offset b = .ok c → encodeBytes c = b
  | [], c, _, h => by
    cases h
    rfl
  | [_], c, _, h => by
    obtain ⟨_, _, _, h₁⟩ := valueAt_bind_eq_ok_iff.1 h
    cases h₁
  | [_, _], c, _, h => by
    obtain ⟨_, _, _, h₁⟩ := valueAt_bind_eq_ok_iff.1 h
    obtain ⟨_, _, _, h₂⟩ := valueAt_bind_eq_ok_iff.1 h₁
    cases h₂
  | [_, _, z], c, _, h => by
    obtain ⟨_, _, _, h₁⟩ := valueAt_bind_eq_ok_iff.1 h
    obtain ⟨_, _, _, h₂⟩ := valueAt_bind_eq_ok_iff.1 h₁
    by_cases hz : z ≠ pad
    · simp only [if_pos hz] at h₂
      obtain ⟨_, _, _, h₃⟩ := valueAt_bind_eq_ok_iff.1 h₂
      cases h₃
    · simp only [if_neg hz] at h₂
      cases h₂
  | [_, _, z, w], c, _, h => by
    obtain ⟨va, ha, rfl, h₁⟩ := valueAt_bind_eq_ok_iff.1 h
    obtain ⟨vb, hb, rfl, h₂⟩ := valueAt_bind_eq_ok_iff.1 h₁
    by_cases hz : z = pad
    · rw [if_pos hz] at h₂
      by_cases hw : w = pad
      · rw [if_neg (not_not_intro hw)] at h₂
        by_cases hzero : vb % 16 = 0
        · rw [if_neg (not_not_intro hzero)] at h₂
          cases h₂
          rw [encodeBytes_join_one ha hb hzero, hz, hw]
        · rw [if_pos hzero] at h₂
          cases h₂
      · rw [if_pos hw] at h₂
        cases h₂
    · rw [if_neg hz] at h₂
      obtain ⟨vc, hc, rfl, h₃⟩ := valueAt_bind_eq_ok_iff.1 h₂
      by_cases hw : w = pad
      · rw [if_pos hw] at h₃
        by_cases hzero : vc % 4 = 0
        · rw [if_neg (not_not_intro hzero)] at h₃
          cases h₃
          rw [encodeBytes_join_two ha hb hc hzero, hw]
        · rw [if_pos hzero] at h₃
          cases h₃
      · rw [if_neg hw] at h₃
        obtain ⟨vd, hd, rfl, h₄⟩ := valueAt_bind_eq_ok_iff.1 h₃
        cases h₄
        have hjoin := encodeBytes_join ha hb hc hd []
        rwa [List.append_nil] at hjoin
  | _ :: _ :: _ :: _ :: _ :: _, _, hlength, _ => by
    simp only [List.length_cons] at hlength
    omega

/-- The quads of a text are those that are written for the bytes that they are read as. -/
theorem encodeBytes_of_quads : ∀ {b c : Bytes} {offset : Nat},
    quads offset b = .ok c → encodeBytes c = b
  | x :: y :: z :: w :: e :: rest, c, offset, h => by
    obtain ⟨va, ha, rfl, h₁⟩ := valueAt_bind_eq_ok_iff.1 h
    obtain ⟨vb, hb, rfl, h₂⟩ := valueAt_bind_eq_ok_iff.1 h₁
    obtain ⟨vc, hc, rfl, h₃⟩ := valueAt_bind_eq_ok_iff.1 h₂
    obtain ⟨vd, hd, rfl, h₄⟩ := valueAt_bind_eq_ok_iff.1 h₃
    obtain ⟨tail, htail, h₅⟩ := bind_eq_ok_iff.1 h₄
    cases h₅
    rw [encodeBytes_join ha hb hc hd, encodeBytes_of_quads htail]
  | [], c, _, h => encodeBytes_of_finish (by simp) h
  | [_], c, _, h => encodeBytes_of_finish (by simp) h
  | [_, _], c, _, h => encodeBytes_of_finish (by simp) h
  | [_, _, _], c, _, h => encodeBytes_of_finish (by simp) h
  | [_, _, _, _], c, _, h => encodeBytes_of_finish (by simp) h

/-- **Only the symbols that are written for a byte string** are read as it. -/
theorem decodeBytes_eq_ok_iff {b c : Bytes} : decodeBytes b = .ok c ↔ b = encodeBytes c := by
  constructor
  · intro h
    unfold decodeBytes at h
    split at h
    next => cases h
    next => exact (encodeBytes_of_quads h).symm
  · rintro rfl
    exact decodeBytes_encodeBytes c

/-! ## Text -/

/-- The character of a symbol is one byte long and not blank. -/
theorem IsSymbol.char {d : UInt8} (h : IsSymbol d) :
    String.utf8EncodeChar (Char.ofNat d.toNat) = [d] ∧ isBlank (Char.ofNat d.toNat) = false := by
  have key : ∀ n : Fin 64, String.utf8EncodeChar (Char.ofNat (symbol n.val).toNat) = [symbol n.val]
      ∧ isBlank (Char.ofNat (symbol n.val).toNat) = false := by decide
  obtain rfl | ⟨n, hn, rfl⟩ := h
  · decide
  · exact key ⟨n, hn⟩

theorem dropWhile_isBlank {cs : List Char} (h : ∀ c ∈ cs, isBlank c = false) :
    cs.dropWhile isBlank = cs := by
  cases cs with
  | nil => rfl
  | cons c cs => rw [List.dropWhile_cons_of_neg (by simp [h c List.mem_cons_self])]

/-- A text without blanks is left as it is. -/
theorem trimChars_of_not_blank {cs : List Char} (h : ∀ c ∈ cs, isBlank c = false) :
    trimChars cs = cs := by
  rw [trimChars, dropWhile_isBlank h,
    dropWhile_isBlank (fun c hc => h c (List.mem_reverse.1 hc)), List.reverse_reverse]

/-- The bytes of a text of symbols are the symbols. -/
theorem utf8Encode_symbols : ∀ {l : Bytes}, (∀ d ∈ l, IsSymbol d) →
    (l.map fun d => Char.ofNat d.toNat).utf8Encode = l.toByteArray
  | [], _ => rfl
  | d :: l, h => by
    have ih := utf8Encode_symbols fun x hx => h x (List.mem_cons_of_mem _ hx)
    rw [List.map_cons, List.utf8Encode_cons, List.utf8Encode_singleton, ih,
      (h d List.mem_cons_self).char.1, ← List.toByteArray_append, List.singleton_append]

theorem trim_encode (b : Bytes) : trim (encode b) = encode b := by
  have hblank : ∀ c ∈ (encodeBytes b).map fun d => Char.ofNat d.toNat, isBlank c = false := by
    intro c hc
    obtain ⟨d, hd, rfl⟩ := List.mem_map.1 hc
    exact (isSymbol_of_mem d hd).char.2
  rw [trim, encode, String.toList_ofList, trimChars_of_not_blank hblank]

theorem ofText_encode (b : Bytes) : Bytes.ofText (encode b) = encodeBytes b := by
  rw [Bytes.ofText, encode, String.toByteArray_ofList, utf8Encode_symbols isSymbol_of_mem]
  simp

/-- **A text is read as a byte string** exactly if it is the one that is written for it, blanks at
its ends aside. -/
theorem decode_eq_ok_iff {s : String} {b : Bytes} : decode s = .ok b ↔ trim s = encode b := by
  rw [decode, decodeBytes_eq_ok_iff, ← ofText_encode, Bytes.ofText_inj]

end SealedTx.Text.Base64

namespace SealedTx

theorem Blob.ofBase64_eq_ok_iff {role : BlobRole} {s : String} {b : Blob role} :
    Blob.ofBase64 s = .ok b ↔ Text.trim s = b.toBase64 := by
  show Blob.mk <$> decodeBase64 s = .ok b ↔ Text.trim s = Text.Base64.encode b.bytes
  rw [Outcome.map_eq_ok_iff, decodeBase64]
  simp only [Outcome.mapError_eq_ok_iff, Text.Base64.decode_eq_ok_iff]
  constructor
  · rintro ⟨c, hc, rfl⟩
    exact hc
  · intro h
    exact ⟨b.bytes, h, rfl⟩

/-- A byte value is read back from its Base64 text. -/
theorem Blob.ofBase64_toBase64 {role : BlobRole} (b : Blob role) :
    Blob.ofBase64 b.toBase64 = .ok b :=
  Blob.ofBase64_eq_ok_iff.2 (Text.Base64.trim_encode b.bytes)

end SealedTx
