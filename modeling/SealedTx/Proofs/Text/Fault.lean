import Mathlib.Data.List.Basic
import SealedTx.Proofs.Text.Base64
import SealedTx.Proofs.Text.Digits

/-!
# Why a text is not Base64

A text that is not Base64 has one fault that it is blamed for, and the fault can be told from the
text alone, without reading it in order (`Fault`): it is the first byte that is no symbol and its
place, unless this is padding that fills the last quad. If all is in its place, the text may be too
short, or the symbol before the padding may have bits that no byte takes. Only a foreign byte that
makes the text one too long is blamed before all others (`StrayEnd`).

What is told of a text is thus little, but it is not nothing: a byte and its place.
-/

namespace SealedTx.Text.Base64

open Outcome

variable {b before behind : Bytes} {d : UInt8} {offset n : Nat} {e : Error}

/-! ## What may stand where -/

/-- Whether a byte is a symbol, which stands for a number. -/
def InAlphabet (d : UInt8) : Prop := ∃ n < 64, d = symbol n

/-- Whether padding fills the last quad, if it stands behind some number of symbols and some bytes
stand behind it. -/
def FillsQuad (symbols : Nat) (behind : Bytes) : Prop :=
  symbols % 4 = 2 ∧ (behind = [] ∨ behind = [pad]) ∨ symbols % 4 = 3 ∧ behind = []

/-- Whether a foreign byte at the end makes a text one too long to be made of quads. -/
def StrayEnd (b : Bytes) (d : UInt8) : Prop :=
  ∃ before, b = before ++ [d] ∧ before.length % 4 = 0 ∧ d ≠ pad ∧ ¬InAlphabet d

/-- The fault of quads that begin at an offset. -/
inductive QuadFault (offset : Nat) (b : Bytes) : Error → Prop where
  /-- The first byte that is no symbol, if it is not padding in its place. -/
  | symbol (before behind : Bytes) {d : UInt8} {i : Nat} (split : b = before ++ d :: behind)
      (hbefore : ∀ x ∈ before, InAlphabet x) (hd : ¬InAlphabet d)
      (hpad : d = pad → ¬FillsQuad before.length behind) (hi : i = offset + before.length) :
      QuadFault offset b (.symbol d i)
  /-- Symbols alone, of which the last quad has one. -/
  | length {i : Nat} (hb : ∀ x ∈ b, InAlphabet x) (hlength : b.length % 4 = 1)
      (hi : i = offset + b.length) : QuadFault offset b (.length i)
  /-- Symbols of which the last quad has two or three, and too little padding behind them. -/
  | padding (symbols pads : Bytes) (split : b = symbols ++ pads)
      (hsymbols : ∀ x ∈ symbols, InAlphabet x)
      (hpads : symbols.length % 4 = 2 ∧ (pads = [] ∨ pads = [pad]) ∨
        symbols.length % 4 = 3 ∧ pads = []) : QuadFault offset b .padding
  /-- A symbol before the padding that has bits set which no byte takes. -/
  | lastSymbol (before pads : Bytes) {n i : Nat} (split : b = before ++ symbol n :: pads)
      (hbefore : ∀ x ∈ before, InAlphabet x) (hn : n < 64)
      (hpads : before.length % 4 = 1 ∧ pads = [pad, pad] ∧ n % 16 ≠ 0 ∨
        before.length % 4 = 2 ∧ pads = [pad] ∧ n % 4 ≠ 0) (hi : i = offset + before.length) :
      QuadFault offset b (.lastSymbol (symbol n) i)

/-- The fault of a text. -/
inductive Fault (b : Bytes) : Error → Prop where
  | strayEnd {d : UInt8} {i : Nat} (hstray : StrayEnd b d) (hi : i + 1 = b.length) :
      Fault b (.symbol d i)
  | quads {e : Error} (hstray : ¬∃ d, StrayEnd b d) (h : QuadFault 0 b e) : Fault b e

/-! ## One byte -/

theorem value?_eq_none_iff : value? d = none ↔ ¬InAlphabet d := by
  constructor
  · rintro h ⟨n, hn, rfl⟩
    rw [value?_symbol hn] at h
    cases h
  · intro h
    cases hv : value? d with
    | none => rfl
    | some n => exact absurd ⟨n, value?_lt hv, eq_symbol_of_value? hv⟩ h

theorem inAlphabet_symbol (h : n < 64) : InAlphabet (symbol n) := ⟨n, h, rfl⟩

theorem not_inAlphabet_pad : ¬InAlphabet pad := value?_eq_none_iff.1 value?_pad

theorem valueAt_of_not_inAlphabet (h : ¬InAlphabet d) :
    valueAt offset d = .error (.symbol d offset) := by
  rw [valueAt, value?_eq_none_iff.2 h]

/-- A step that begins with a symbol fails if the byte is none, or else as it goes on. -/
theorem valueAt_bind_eq_error_iff {f : Nat → Except Error Bytes} :
    valueAt offset d >>= f = .error e ↔
      ¬InAlphabet d ∧ e = .symbol d offset ∨ ∃ n < 64, d = symbol n ∧ f n = .error e := by
  rw [bind_eq_error_iff]
  simp only [valueAt_eq_ok_iff, and_assoc]
  refine or_congr ?_ Iff.rfl
  by_cases hd : InAlphabet d
  · obtain ⟨n, hn, rfl⟩ := hd
    simp [valueAt_symbol offset hn, inAlphabet_symbol hn]
  · simp [valueAt_of_not_inAlphabet hd, hd, eq_comm]

/-! ## What reading is blamed on -/

/-- Reading a byte behind symbols fails with the fault of the text, or it goes on with the number of
a symbol. -/
theorem fault_of_valueAt_bind (before behind : Bytes) {f : Nat → Except Error Bytes}
    (hbefore : ∀ x ∈ before, InAlphabet x) (hpad : d = pad → ¬FillsQuad before.length behind)
    (h : valueAt (offset + before.length) d >>= f = .error e) :
    QuadFault offset (before ++ d :: behind) e ∨ ∃ n < 64, d = symbol n ∧ f n = .error e := by
  rcases valueAt_bind_eq_error_iff.1 h with ⟨hd, rfl⟩ | h
  · exact .inl (.symbol before behind rfl hbefore hd hpad rfl)
  · exact .inr h

theorem not_fillsQuad_of_lt {symbols : Nat} (h : symbols < 2) : ¬FillsQuad symbols behind := by
  rw [FillsQuad]
  omega

section Symbols

variable {l m k : Nat}

theorem inAlphabet_one (hl : l < 64) : ∀ x ∈ [symbol l], InAlphabet x := by
  simp [inAlphabet_symbol hl]

theorem inAlphabet_two (hl : l < 64) (hm : m < 64) : ∀ x ∈ [symbol l, symbol m], InAlphabet x := by
  simp [inAlphabet_symbol hl, inAlphabet_symbol hm]

theorem inAlphabet_three (hl : l < 64) (hm : m < 64) (hk : k < 64) :
    ∀ x ∈ [symbol l, symbol m, symbol k], InAlphabet x := by
  simp [inAlphabet_symbol hl, inAlphabet_symbol hm, inAlphabet_symbol hk]

end Symbols

theorem fault_of_finish : ∀ {b : Bytes}, b.length ≤ 4 → finish offset b = .error e →
    QuadFault offset b e
  | [], _, h => by
    cases h
  | [x], _, h => by
    rcases fault_of_valueAt_bind [] [] (by simp)
      (fun _ => not_fillsQuad_of_lt (by simp)) h with hx | ⟨l, hl, rfl, h₁⟩
    · exact hx
    · cases h₁
      exact .length (inAlphabet_one hl) rfl rfl
  | [x, y], _, h => by
    rcases fault_of_valueAt_bind [] [y] (by simp)
      (fun _ => not_fillsQuad_of_lt (by simp)) h with hx | ⟨l, hl, rfl, h₁⟩
    · exact hx
    rcases fault_of_valueAt_bind [symbol l] [] (inAlphabet_one hl)
      (fun _ => not_fillsQuad_of_lt (by simp)) h₁ with hy | ⟨m, hm, rfl, h₂⟩
    · exact hy
    · cases h₂
      exact .padding [_, _] _ rfl (inAlphabet_two hl hm) (by simp)
  | [x, y, z], _, h => by
    rcases fault_of_valueAt_bind [] [y, z] (by simp)
      (fun _ => not_fillsQuad_of_lt (by simp)) h with hx | ⟨l, hl, rfl, h₁⟩
    · exact hx
    rcases fault_of_valueAt_bind [symbol l] [z] (inAlphabet_one hl)
      (fun _ => not_fillsQuad_of_lt (by simp)) h₁ with hy | ⟨m, hm, rfl, h₂⟩
    · exact hy
    by_cases hz : z = pad
    · subst hz
      cases h₂
      exact .padding [_, _] _ rfl (inAlphabet_two hl hm) (by simp)
    · simp only [if_pos hz] at h₂
      rcases fault_of_valueAt_bind [symbol l, symbol m] []
        (inAlphabet_two hl hm) (fun hpad => absurd hpad hz) h₂ with hz | ⟨k, hk, rfl, h₃⟩
      · exact hz
      · cases h₃
        exact .padding [_, _, _] _ (List.append_nil _).symm
          (inAlphabet_three hl hm hk) (by simp)
  | [x, y, z, w], _, h => by
    rcases fault_of_valueAt_bind [] [y, z, w] (by simp)
      (fun _ => not_fillsQuad_of_lt (by simp)) h with hx | ⟨l, hl, rfl, h₁⟩
    · exact hx
    rcases fault_of_valueAt_bind [symbol l] [z, w] (inAlphabet_one hl)
      (fun _ => not_fillsQuad_of_lt (by simp)) h₁ with hy | ⟨m, hm, rfl, h₂⟩
    · exact hy
    by_cases hz : z = pad
    · subst hz
      rw [if_pos rfl] at h₂
      by_cases hw : w = pad
      · subst hw
        rw [if_neg (not_not_intro rfl)] at h₂
        by_cases hzero : m % 16 = 0
        · rw [if_neg (not_not_intro hzero)] at h₂
          cases h₂
        · rw [if_pos hzero] at h₂
          cases h₂
          exact .lastSymbol [symbol l] _ rfl (inAlphabet_one hl) hm (by simp [hzero]) rfl
      · -- padding of which the other half is missing
        rw [if_pos hw] at h₂
        cases h₂
        exact .symbol [symbol l, symbol m] _ rfl (inAlphabet_two hl hm)
          not_inAlphabet_pad (by simp [FillsQuad, hw]) rfl
    · rw [if_neg hz] at h₂
      rcases fault_of_valueAt_bind [symbol l, symbol m] [w]
        (inAlphabet_two hl hm) (fun hpad => absurd hpad hz) h₂ with hz | ⟨k, hk, rfl, h₃⟩
      · exact hz
      by_cases hw : w = pad
      · subst hw
        rw [if_pos rfl] at h₃
        by_cases hzero : k % 4 = 0
        · rw [if_neg (not_not_intro hzero)] at h₃
          cases h₃
        · rw [if_pos hzero] at h₃
          cases h₃
          exact .lastSymbol [symbol l, symbol m] _ rfl (inAlphabet_two hl hm) hk
            (by simp [hzero]) rfl
      · rw [if_neg hw] at h₃
        rcases fault_of_valueAt_bind [symbol l, symbol m, symbol k] []
          (inAlphabet_three hl hm hk) (fun hpad => absurd hpad hw) h₃ with hw | ⟨_, _, _, h₄⟩
        · exact hw
        · cases h₄
  | _ :: _ :: _ :: _ :: _ :: _, hlength, _ => by
    simp only [List.length_cons] at hlength
    omega

/-- Symbols in front of quads put their fault off. -/
theorem QuadFault.append_left (symbols : Bytes) (h : QuadFault (offset + symbols.length) b e)
    (hsymbols : ∀ x ∈ symbols, InAlphabet x) (hlength : symbols.length % 4 = 0) :
    QuadFault offset (symbols ++ b) e := by
  have hmod : ∀ l : Bytes, (symbols ++ l).length % 4 = l.length % 4 := by
    intro l
    rw [List.length_append]
    omega
  cases h with
  | @symbol before behind d _ split hbefore hd hpad hi =>
    refine .symbol (symbols ++ before) _ (by rw [split, List.append_assoc])
      (List.forall_mem_append.2 ⟨hsymbols, hbefore⟩) hd ?_ (by rw [hi, List.length_append]; omega)
    rwa [FillsQuad, hmod]
  | length hb hone hi =>
    exact .length (List.forall_mem_append.2 ⟨hsymbols, hb⟩) (by rw [hmod, hone])
      (by rw [hi, List.length_append]; omega)
  | @padding symbols' pads split hsymbols' hpads =>
    refine .padding (symbols ++ symbols') _ (by rw [split, List.append_assoc])
      (List.forall_mem_append.2 ⟨hsymbols, hsymbols'⟩) ?_
    rwa [hmod]
  | @lastSymbol before pads n _ split hbefore hn hpads hi =>
    refine .lastSymbol (symbols ++ before) _ (by rw [split, List.append_assoc])
      (List.forall_mem_append.2 ⟨hsymbols, hbefore⟩) hn ?_ (by rw [hi, List.length_append]; omega)
    rwa [hmod]

theorem fault_of_quads : ∀ {b : Bytes} {offset : Nat}, quads offset b = .error e →
    QuadFault offset b e
  | x :: y :: z :: w :: v :: rest, offset, h => by
    -- a further byte follows, so there is no padding in this quad
    rcases fault_of_valueAt_bind [] _ (by simp) (by simp [FillsQuad]) h with
      hx | ⟨l, hl, rfl, h₁⟩
    · exact hx
    rcases fault_of_valueAt_bind [symbol l] _ (inAlphabet_one hl) (by simp [FillsQuad])
      h₁ with hy | ⟨m, hm, rfl, h₂⟩
    · exact hy
    rcases fault_of_valueAt_bind [symbol l, symbol m] (w :: v :: rest)
      (inAlphabet_two hl hm) (by simp [FillsQuad]) h₂ with hz | ⟨k, hk, rfl, h₃⟩
    · exact hz
    have hthree := inAlphabet_three hl hm hk
    rcases fault_of_valueAt_bind [symbol l, symbol m, symbol k] (v :: rest)
      hthree (by simp [FillsQuad]) h₃ with hw | ⟨i, hi, rfl, h₄⟩
    · exact hw
    rcases bind_eq_error_iff.1 h₄ with h₅ | ⟨_, _, h₅⟩
    · refine (fault_of_quads h₅).append_left [_, _, _, _] ?_ (by simp)
      exact List.forall_mem_append.2 ⟨hthree, inAlphabet_one hi⟩
    · cases h₅
  | [], offset, h => fault_of_finish (by simp) h
  | [_], offset, h => fault_of_finish (by simp) h
  | [_, _], offset, h => fault_of_finish (by simp) h
  | [_, _, _], offset, h => fault_of_finish (by simp) h
  | [_, _, _, _], offset, h => fault_of_finish (by simp) h

/-! ## What is blamed is found -/

/-- Symbols that reach over a quad begin with it. -/
theorem exists_of_append_eq {x y z w : UInt8} {rest symbols tail : Bytes}
    (split : x :: y :: z :: w :: rest = symbols ++ tail) (h : 4 ≤ symbols.length) :
    ∃ symbols', symbols = x :: y :: z :: w :: symbols' ∧ rest = symbols' ++ tail := by
  match symbols, split with
  | _ :: _ :: _ :: _ :: symbols', split =>
    cases split
    exact ⟨symbols', rfl, rfl⟩
  | [], _ | [_], _ | [_, _], _ | [_, _, _], _ => simp at h

/-- The fault of a quad and what follows it is that of its first byte that is no symbol, or else the
fault of what follows. -/
theorem QuadFault.cases_of_more {x y z w v : UInt8} {rest : Bytes}
    (h : QuadFault offset (x :: y :: z :: w :: v :: rest) e) :
    ¬InAlphabet x ∧ e = .symbol x offset ∨
    InAlphabet x ∧ ¬InAlphabet y ∧ e = .symbol y (offset + 1) ∨
    InAlphabet x ∧ InAlphabet y ∧ ¬InAlphabet z ∧ e = .symbol z (offset + 2) ∨
    InAlphabet x ∧ InAlphabet y ∧ InAlphabet z ∧ ¬InAlphabet w ∧ e = .symbol w (offset + 3) ∨
    (InAlphabet x ∧ InAlphabet y ∧ InAlphabet z ∧ InAlphabet w) ∧
      QuadFault (offset + 4) (v :: rest) e := by
  have hquad : ∀ {symbols : Bytes}, (∀ d ∈ x :: y :: z :: w :: symbols, InAlphabet d) →
      (InAlphabet x ∧ InAlphabet y ∧ InAlphabet z ∧ InAlphabet w) ∧
        ∀ d ∈ symbols, InAlphabet d := by
    intro symbols h
    simpa [and_assoc] using h
  have hmod : ∀ {symbols : Bytes}, (x :: y :: z :: w :: symbols).length % 4 =
      symbols.length % 4 := by
    intro symbols
    simp only [List.length_cons]
    omega
  cases h with
  | @symbol before behind d i split hbefore hd hpad hi =>
    subst hi
    by_cases hlength : 4 ≤ before.length
    · obtain ⟨before, rfl, hrest⟩ := exists_of_append_eq split hlength
      obtain ⟨hfour, hbefore⟩ := hquad hbefore
      refine .inr (.inr (.inr (.inr ⟨hfour, .symbol before behind hrest hbefore hd ?_ ?_⟩)))
      · rwa [FillsQuad, ← hmod]
      · simp only [List.length_cons]
        omega
    · match before, split with
      | [], split =>
        cases split
        exact .inl ⟨hd, rfl⟩
      | [_], split =>
        cases split
        simp at hbefore
        exact .inr (.inl ⟨hbefore, hd, rfl⟩)
      | [_, _], split =>
        cases split
        simp at hbefore
        exact .inr (.inr (.inl ⟨hbefore.1, hbefore.2, hd, rfl⟩))
      | [_, _, _], split =>
        cases split
        simp at hbefore
        exact .inr (.inr (.inr (.inl ⟨hbefore.1, hbefore.2.1, hbefore.2.2, hd, rfl⟩)))
      | _ :: _ :: _ :: _ :: _, _ => exact absurd (by simp) hlength
  | length hb hone hi =>
    obtain ⟨hfour, hb⟩ := hquad hb
    refine .inr (.inr (.inr (.inr ⟨hfour, .length hb (by rw [← hmod, hone]) ?_⟩)))
    simp only [hi, List.length_cons]
    omega
  | @padding symbols pads split hsymbols hpads =>
    have hlength := congrArg List.length split
    have hle : 4 ≤ symbols.length := by
      rcases hpads with ⟨_, rfl | rfl⟩ | ⟨_, rfl⟩ <;> simp at hlength <;> omega
    obtain ⟨symbols, rfl, hrest⟩ := exists_of_append_eq split hle
    obtain ⟨hfour, hsymbols⟩ := hquad hsymbols
    refine .inr (.inr (.inr (.inr ⟨hfour, .padding symbols pads hrest hsymbols ?_⟩)))
    rwa [← hmod]
  | @lastSymbol before pads n _ split hbefore hn hpads hi =>
    have hlength := congrArg List.length split
    have hle : 4 ≤ before.length := by
      rcases hpads with ⟨_, rfl, _⟩ | ⟨_, rfl, _⟩ <;> simp at hlength <;> omega
    obtain ⟨before, rfl, hrest⟩ := exists_of_append_eq split hle
    obtain ⟨hfour, hbefore⟩ := hquad hbefore
    refine .inr (.inr (.inr (.inr ⟨hfour, .lastSymbol before pads hrest hbefore hn ?_ ?_⟩)))
    · rwa [← hmod]
    · simp only [hi, List.length_cons]
      omega

theorem finish_of_fault (hlength : b.length ≤ 4) (h : QuadFault offset b e) :
    finish offset b = .error e := by
  cases h with
  | @symbol before behind d i split hbefore hd hpad hi =>
    subst split hi
    match before, behind, hlength with
    | [], [], _ | [], [_], _ | [], [_, _], _ | [], [_, _, _], _ =>
      simp [finish, valueAt_of_not_inAlphabet hd]
    | [x], [], _ | [x], [_], _ | [x], [_, _], _ =>
      obtain ⟨l, hl, rfl⟩ := hbefore x (by simp)
      simp [finish, valueAt_symbol _ hl, valueAt_of_not_inAlphabet hd]
    | [x, y], [], _ =>
      obtain ⟨l, hl, rfl⟩ := hbefore x (by simp)
      obtain ⟨m, hm, rfl⟩ := hbefore y (by simp)
      have hd' : d ≠ pad := fun h => hpad h (by simp [FillsQuad])
      simp [finish, valueAt_symbol _ hl, valueAt_symbol _ hm, valueAt_of_not_inAlphabet hd, hd']
    | [x, y], [w], _ =>
      obtain ⟨l, hl, rfl⟩ := hbefore x (by simp)
      obtain ⟨m, hm, rfl⟩ := hbefore y (by simp)
      by_cases hd' : d = pad
      · have hw : w ≠ pad := fun h => hpad hd' (by simp [FillsQuad, h])
        simp [finish, valueAt_symbol _ hl, valueAt_symbol _ hm, hd', hw]
      · simp [finish, valueAt_symbol _ hl, valueAt_symbol _ hm, valueAt_of_not_inAlphabet hd, hd']
    | [x, y, z], [], _ =>
      obtain ⟨l, hl, rfl⟩ := hbefore x (by simp)
      obtain ⟨m, hm, rfl⟩ := hbefore y (by simp)
      obtain ⟨k, hk, rfl⟩ := hbefore z (by simp)
      have hd' : d ≠ pad := fun h => hpad h (by simp [FillsQuad])
      simp [finish, valueAt_symbol _ hl, valueAt_symbol _ hm, valueAt_symbol _ hk,
        symbol_ne_pad hk, valueAt_of_not_inAlphabet hd, hd']
    | _ :: _ :: _ :: _ :: _, _, hlength =>
      simp only [List.length_append, List.length_cons] at hlength
      omega
  | length hb hone hi =>
    obtain ⟨x, rfl⟩ : ∃ x, b = [x] := List.length_eq_one_iff.1 (by omega)
    obtain ⟨l, hl, rfl⟩ := hb x (by simp)
    simp [finish, valueAt_symbol _ hl, hi]
  | @padding symbols pads split hsymbols hpads =>
    subst split
    rw [List.length_append] at hlength
    rcases hpads with ⟨htwo, hpads⟩ | ⟨hthree, rfl⟩
    · obtain ⟨x, y, rfl⟩ := List.length_eq_two.1 (show symbols.length = 2 by omega)
      obtain ⟨l, hl, rfl⟩ := hsymbols x (by simp)
      obtain ⟨m, hm, rfl⟩ := hsymbols y (by simp)
      rcases hpads with rfl | rfl
      · simp [finish, valueAt_symbol _ hl, valueAt_symbol _ hm]
      · simp [finish, valueAt_symbol _ hl, valueAt_symbol _ hm]
    · obtain ⟨x, y, z, rfl⟩ := List.length_eq_three.1 (show symbols.length = 3 by omega)
      obtain ⟨l, hl, rfl⟩ := hsymbols x (by simp)
      obtain ⟨m, hm, rfl⟩ := hsymbols y (by simp)
      obtain ⟨k, hk, rfl⟩ := hsymbols z (by simp)
      simp [finish, valueAt_symbol _ hl, valueAt_symbol _ hm, valueAt_symbol _ hk]
  | @lastSymbol before pads n _ split hbefore hn hpads hi =>
    subst split hi
    rw [List.length_append, List.length_cons] at hlength
    rcases hpads with ⟨hone, rfl, hspare⟩ | ⟨htwo, rfl, hspare⟩
    · obtain ⟨x, rfl⟩ := List.length_eq_one_iff.1 (show before.length = 1 by omega)
      obtain ⟨l, hl, rfl⟩ := hbefore x (by simp)
      simp [finish, valueAt_symbol _ hl, valueAt_symbol _ hn, hspare]
    · obtain ⟨x, y, rfl⟩ := List.length_eq_two.1 (show before.length = 2 by omega)
      obtain ⟨l, hl, rfl⟩ := hbefore x (by simp)
      obtain ⟨m, hm, rfl⟩ := hbefore y (by simp)
      simp [finish, valueAt_symbol _ hl, valueAt_symbol _ hm, valueAt_symbol _ hn,
        symbol_ne_pad hn, hspare]

theorem quads_of_fault : ∀ {b : Bytes} {offset : Nat}, QuadFault offset b e →
    quads offset b = .error e
  | x :: y :: z :: w :: v :: rest, offset, h => by
    rw [quads]
    rcases h.cases_of_more with ⟨hx, rfl⟩ | ⟨⟨l, hl, rfl⟩, hy, rfl⟩ |
      ⟨⟨l, hl, rfl⟩, ⟨m, hm, rfl⟩, hz, rfl⟩ | ⟨⟨l, hl, rfl⟩, ⟨m, hm, rfl⟩, ⟨k, hk, rfl⟩, hw, rfl⟩ |
      ⟨⟨⟨l, hl, rfl⟩, ⟨m, hm, rfl⟩, ⟨k, hk, rfl⟩, ⟨i, hi, rfl⟩⟩, hrest⟩
    · rw [valueAt_of_not_inAlphabet hx, error_bind]
    · rw [valueAt_symbol _ hl, valueAt_of_not_inAlphabet hy, ok_bind, error_bind]
    · rw [valueAt_symbol _ hl, valueAt_symbol _ hm, valueAt_of_not_inAlphabet hz, ok_bind, ok_bind,
        error_bind]
    · rw [valueAt_symbol _ hl, valueAt_symbol _ hm, valueAt_symbol _ hk,
        valueAt_of_not_inAlphabet hw, ok_bind, ok_bind, ok_bind, error_bind]
    · rw [valueAt_symbol _ hl, valueAt_symbol _ hm, valueAt_symbol _ hk, valueAt_symbol _ hi,
        ok_bind, ok_bind, ok_bind, ok_bind, quads_of_fault hrest, error_bind]
  | [], offset, h => finish_of_fault (by simp) h
  | [_], offset, h => finish_of_fault (by simp) h
  | [_, _], offset, h => finish_of_fault (by simp) h
  | [_, _, _], offset, h => finish_of_fault (by simp) h
  | [_, _, _, _], offset, h => finish_of_fault (by simp) h

theorem quads_eq_error_iff : quads offset b = .error e ↔ QuadFault offset b e :=
  ⟨fault_of_quads, quads_of_fault⟩

/-! ## Texts -/

theorem strayEnd?_eq_some_iff :
    strayEnd? b = some e ↔ ∃ d i, StrayEnd b d ∧ i + 1 = b.length ∧ e = .symbol d i := by
  rcases List.eq_nil_or_concat b with rfl | ⟨before, last, rfl⟩
  · simp [strayEnd?, StrayEnd]
  rw [List.concat_eq_append]
  have hmod : (before.length + 1) % 4 = 1 ↔ before.length % 4 = 0 := by omega
  have hstray : ∀ d, StrayEnd (before ++ [last]) d ↔
      before.length % 4 = 0 ∧ d ≠ pad ∧ ¬InAlphabet d ∧ last = d := by
    intro d
    constructor
    · rintro ⟨before', split, h⟩
      obtain ⟨rfl, hlast⟩ := List.append_inj' split rfl
      exact ⟨h.1, h.2.1, h.2.2, List.head_eq_of_cons_eq hlast⟩
    · rintro ⟨hlength, hpad, hd, rfl⟩
      exact ⟨before, rfl, hlength, hpad, hd⟩
  simp only [hstray, strayEnd?, List.getLast?_concat, List.length_append, List.length_singleton,
    hmod]
  constructor
  · intro h
    split at h
    next hlength =>
      split at h
      next hlast =>
        cases h
        have hd := value?_eq_none_iff.1 hlast.2
        exact ⟨last, before.length, ⟨hlength, hlast.1, hd, rfl⟩, rfl, by simp⟩
      next => cases h
    next => cases h
  · rintro ⟨_, i, ⟨hlength, hpad, hd, rfl⟩, hi, rfl⟩
    rw [if_pos hlength, if_pos ⟨hpad, value?_eq_none_iff.2 hd⟩, Nat.succ.inj hi, Nat.add_sub_cancel]

/-- **Reading fails with the fault of the text.** -/
theorem decodeBytes_eq_error_iff : decodeBytes b = .error e ↔ Fault b e := by
  rw [decodeBytes]
  cases hs : strayEnd? b with
  | some e' =>
    obtain ⟨d, i, hstray, hi, rfl⟩ := strayEnd?_eq_some_iff.1 hs
    constructor
    · intro h
      cases h
      exact .strayEnd hstray hi
    · intro h
      cases h with
      | strayEnd hstray' hi' =>
        have h := strayEnd?_eq_some_iff.2 ⟨_, _, hstray', hi', rfl⟩
        rw [hs] at h
        rw [Option.some.inj h]
      | quads hnone => exact absurd ⟨d, hstray⟩ hnone
  | none =>
    have hnone : ¬∃ d, StrayEnd b d := by
      rintro ⟨d, hstray⟩
      obtain ⟨before, hb, _⟩ := id hstray
      rw [strayEnd?_eq_some_iff.2 ⟨d, before.length, hstray, by simp [hb], rfl⟩] at hs
      cases hs
    show quads 0 b = .error e ↔ Fault b e
    rw [quads_eq_error_iff]
    constructor
    · exact .quads hnone
    · intro h
      cases h with
      | strayEnd hstray => exact absurd ⟨_, hstray⟩ hnone
      | quads _ h => exact h

theorem decode_eq_error_iff {s : String} :
    decode s = .error e ↔ Fault (Bytes.ofText (trim s)) e :=
  decodeBytes_eq_error_iff

/-! ## Wording -/

/-- The wordings of all faults begin alike and go on differently. -/
theorem Error.toList_message : ∀ e : Error, e.message.toList = "Invalid ".toList ++ match e with
    | .symbol d i => 's' :: ("ymbol ".toList ++ ((toString d.toNat).toList ++ ',' ::
        (" offset ".toList ++ ((toString i).toList ++ ['.']))))
    | .length n => 'i' :: ("nput length: ".toList ++ (toString n).toList)
    | .lastSymbol d i => 'l' :: ("ast symbol ".toList ++ ((toString d.toNat).toList ++ ',' ::
        (" offset ".toList ++ ((toString i).toList ++ ['.']))))
    | .padding => 'p' :: "adding".toList
  | .symbol d i => by
    show ("Invalid symbol " ++ toString d.toNat ++ ", offset " ++ toString i ++ ".").toList = _
    simp only [String.toList_append, List.append_assoc]
    rfl
  | .length n => by
    show ("Invalid input length: " ++ toString n).toList = _
    simp only [String.toList_append]
    rfl
  | .lastSymbol d i => by
    show ("Invalid last symbol " ++ toString d.toNat ++ ", offset " ++ toString i ++ ".").toList = _
    simp only [String.toList_append, List.append_assoc]
    rfl
  | .padding => by decide

theorem place_inj {d d' : UInt8} {i i' : Nat}
    (h : (toString d.toNat).toList ++ ',' :: (" offset ".toList ++ ((toString i).toList ++ ['.'])) =
      (toString d'.toNat).toList ++ ',' :: (" offset ".toList ++ ((toString i').toList ++ ['.']))) :
    d = d' ∧ i = i' := by
  obtain ⟨hd, h⟩ := toString_append_inj rfl rfl h
  have h := List.append_cancel_left (List.tail_eq_of_cons_eq h)
  exact ⟨UInt8.toNat_inj.1 hd, (toString_append_inj rfl rfl h).1⟩

/-- **The wording tells all of a fault.** -/
theorem Error.message_injective : Function.Injective Error.message := by
  intro e e' h
  have h := congrArg String.toList h
  rw [toList_message, toList_message] at h
  have h := List.append_cancel_left h
  cases e with
  | symbol d i =>
    cases e' with
    | symbol d' i' =>
      obtain ⟨rfl, rfl⟩ := place_inj (List.append_cancel_left (List.tail_eq_of_cons_eq h))
      rfl
    | length | lastSymbol | padding => exact absurd (List.head_eq_of_cons_eq h) (by decide)
  | length n =>
    cases e' with
    | length n' =>
      rw [toString_toList_inj (List.append_cancel_left (List.tail_eq_of_cons_eq h))]
    | symbol | lastSymbol | padding => exact absurd (List.head_eq_of_cons_eq h) (by decide)
  | lastSymbol d i =>
    cases e' with
    | lastSymbol d' i' =>
      obtain ⟨rfl, rfl⟩ := place_inj (List.append_cancel_left (List.tail_eq_of_cons_eq h))
      rfl
    | symbol | length | padding => exact absurd (List.head_eq_of_cons_eq h) (by decide)
  | padding =>
    cases e' with
    | padding => rfl
    | symbol | length | lastSymbol => exact absurd (List.head_eq_of_cons_eq h) (by decide)

end SealedTx.Text.Base64
