import SealedTx.Codec.Version
import SealedTx.Proofs.Text.Blank
import SealedTx.Proofs.Text.Digits

/-!
# The versions that a peer names

A peer names its versions in texts. What such a text may be is said here without the reader of it:
a number of at most 32 bits, or two of them with a dot between them, or these and a second dot with
anything behind it (`Written`); before that one letter may stand, and around it blanks (`Names`).
The reader finds the version that a text names, and none in any other text (`parse?_eq_some_iff`).

The map format is written for a peer exactly if one of its texts names a version from 5 on, whatever
its minor number (`preferred_exact`). So the choice is one by the set of versions that are named,
and a further one can only speak for the newer format.
-/

namespace SealedTx.Version

open Text (isBlank trimChars)

variable {cs ds : List Char} {n : Nat} {v : Version}

/-! ## Numbers -/

/-- Whether characters are the decimal digits of a number, with zeros in front or without. -/
structure Decimal (ds : List Char) (n : Nat) : Prop where
  ne_nil : ds ≠ []
  isDigit : ∀ d ∈ ds, d.isDigit = true
  value : Nat.ofDigitChars 10 ds 0 = n

/-- Whether characters are a number of at most 32 bits. A plus sign may stand before the digits. -/
def Numeral (cs : List Char) (n : Nat) : Prop :=
  n < 0x100000000 ∧ (Decimal cs n ∨ ∃ ds, cs = '+' :: ds ∧ Decimal ds n)

theorem digitsValue?_eq_some_iff : digitsValue? ds = some n ↔ Decimal ds n := by
  have hvalue : ds.foldl (fun n d => n * 10 + (d.toNat - 48)) 0 = Nat.ofDigitChars 10 ds 0 := by
    simp only [Nat.ofDigitChars_eq_foldl, Nat.mul_comm]
    rfl
  cases ds with
  | nil =>
    have hnil : ¬Decimal [] n := fun h => h.ne_nil rfl
    simp [digitsValue?, hnil]
  | cons d ds =>
    rw [digitsValue?, hvalue, Option.ite_none_right_eq_some, List.all_eq_true, Option.some_inj]
    · exact ⟨fun h => ⟨List.cons_ne_nil d ds, h.1, h.2⟩, fun h => ⟨h.isDigit, h.value⟩⟩
    · exact List.cons_ne_nil d ds

theorem number?_eq_some_iff : number? cs = some n ↔ Numeral cs n := by
  have hdigits : ∀ ds, (digitsValue? ds).filter (fun m => decide (m < 0x100000000)) = some n ↔
      n < 0x100000000 ∧ Decimal ds n := by
    intro ds
    rw [Option.filter_eq_some_iff, digitsValue?_eq_some_iff, decide_eq_true_eq, and_comm]
  unfold number?
  split
  · next ds =>
    -- a plus sign is no digit
    have hplus : ¬Decimal ('+' :: ds) n := fun h => by simpa using h.isDigit '+'
    simp [hdigits, Numeral, hplus]
  · next hplus =>
    have hcs : ∀ ds, cs ≠ '+' :: ds := hplus
    simp [hdigits, Numeral, hcs]

theorem Decimal.of_nat (n : Nat) : Decimal (toString n).toList n where
  ne_nil := by simp [Nat.toString_eq_repr, Nat.toList_repr, Nat.toDigits_ne_nil]
  isDigit _ := Text.isDigit_of_mem_toString
  value := Text.ofDigitChars_toString n

/-- A number is read from its text. -/
theorem Numeral.of_nat (h : n < 0x100000000) : Numeral (toString n).toList n :=
  ⟨h, .inl (.of_nat n)⟩

theorem Numeral.ne_nil (h : Numeral cs n) : cs ≠ [] := by
  rcases h.2 with hcs | ⟨ds, rfl, _⟩
  · exact hcs.ne_nil
  · exact List.cons_ne_nil _ _

theorem Numeral.mem_cases (h : Numeral cs n) {c : Char} (hc : c ∈ cs) :
    c = '+' ∨ c.isDigit = true := by
  rcases h.2 with hcs | ⟨ds, rfl, hds⟩
  · exact .inr (hcs.isDigit c hc)
  · rcases List.mem_cons.1 hc with rfl | hc
    · exact .inl rfl
    · exact .inr (hds.isDigit c hc)

/-- What stands in a number is no blank, no dot and no letter. -/
theorem Numeral.of_mem (h : Numeral cs n) {c : Char} (hc : c ∈ cs) :
    isBlank c = false ∧ c ≠ '.' ∧ c ≠ 'v' ∧ c ≠ 'V' := by
  rcases h.mem_cases hc with rfl | hdigit
  · decide
  · refine ⟨?_, ?_, ?_, ?_⟩
    · have hle : 48 ≤ c.toNat ∧ c.toNat ≤ 57 := by
        simpa [Char.isDigit, UInt32.le_iff_toNat_le] using hdigit
      simp [isBlank]
      omega
    all_goals
      rintro rfl
      exact absurd hdigit (by decide)

/-! ## Dots -/

theorem splitDot_of_not_mem : ∀ {cs : List Char}, '.' ∉ cs → splitDot cs = (cs, none)
  | [], _ => rfl
  | c :: cs, h => by
    obtain ⟨hc, hcs⟩ := not_or.1 (mt List.mem_cons.2 h)
    rw [splitDot, splitDot_of_not_mem hcs]
    exact fun e => hc e.symm

theorem splitDot_append_dot : ∀ {cs : List Char}, '.' ∉ cs → ∀ rest,
    splitDot (cs ++ '.' :: rest) = (cs, some rest)
  | [], _, rest => rfl
  | c :: cs, h, rest => by
    obtain ⟨hc, hcs⟩ := not_or.1 (mt List.mem_cons.2 h)
    rw [List.cons_append, splitDot, splitDot_append_dot hcs]
    exact fun e => hc e.symm

/-- What stands before the first dot and behind it makes the whole. -/
theorem eq_of_splitDot : ∀ {cs part : List Char} {tail : Option (List Char)},
    splitDot cs = (part, tail) → cs = part ++ tail.elim [] fun rest => '.' :: rest
  | [], part, tail, h => by
    cases h
    rfl
  | c :: cs, part, tail, h => by
    by_cases hc : c = '.'
    · subst hc
      cases h
      rfl
    · rw [splitDot] at h
      · cases h
        rw [List.cons_append, ← eq_of_splitDot rfl]
      · exact hc

/-! ## Versions -/

/-- Whether characters are a version: a number or two with a dot between them, and whatever stands
behind a second dot. -/
inductive Written : List Char → Version → Prop where
  | major {cs : List Char} {a : Nat} : Numeral cs a → Written cs ⟨a, 0⟩
  | minor {cs ds : List Char} {a b : Nat} : Numeral cs a → Numeral ds b →
      Written (cs ++ '.' :: ds) ⟨a, b⟩
  | more {cs ds : List Char} {a b : Nat} (rest : List Char) : Numeral cs a → Numeral ds b →
      Written (cs ++ '.' :: (ds ++ '.' :: rest)) ⟨a, b⟩

/-- Whether a text names a version: blanks may stand around it and one letter before it. -/
def Names (text : String) (v : Version) : Prop := ∃ left letter cs right,
  text.toList = left ++ (letter ++ cs) ++ right ∧ (∀ c ∈ left, isBlank c = true) ∧
    (∀ c ∈ right, isBlank c = true) ∧ letter ∈ [[], ['v'], ['V']] ∧ Written cs v

theorem parse?_eq_some_iff_written {text : String} :
    parse? text = some v ↔ Written (dropLetter (trimChars text.toList)) v := by
  generalize hcs : dropLetter (trimChars text.toList) = cs
  unfold parse?
  rw [hcs]
  constructor
  · intro h
    obtain ⟨⟨part, tail⟩, hsplit⟩ : ∃ r, splitDot cs = r := ⟨_, rfl⟩
    rw [hsplit] at h
    obtain ⟨a, ha, h⟩ := Option.bind_eq_some_iff.1 h
    have ha := number?_eq_some_iff.1 ha
    cases tail with
    | none =>
      cases h
      rw [eq_of_splitDot hsplit, Option.elim_none, List.append_nil]
      exact .major ha
    | some tail =>
      obtain ⟨b, hb, h⟩ := Option.bind_eq_some_iff.1 h
      cases h
      have hb := number?_eq_some_iff.1 hb
      have htail := @eq_of_splitDot tail _ _ rfl
      rw [eq_of_splitDot hsplit, Option.elim_some, htail]
      cases (splitDot tail).2 with
      | none =>
        rw [Option.elim_none, List.append_nil]
        exact .minor ha hb
      | some rest => exact .more rest ha hb
  · intro h
    have hdot : ∀ {cs : List Char} {n : Nat}, Numeral cs n → '.' ∉ cs :=
      fun h hmem => (h.of_mem hmem).2.1 rfl
    cases h with
    | major ha =>
      rw [splitDot_of_not_mem (hdot ha)]
      simp [number?_eq_some_iff.2 ha]
    | minor ha hb =>
      rw [splitDot_append_dot (hdot ha)]
      simp [number?_eq_some_iff.2 ha, splitDot_of_not_mem (hdot hb), number?_eq_some_iff.2 hb]
    | more rest ha hb =>
      rw [splitDot_append_dot (hdot ha)]
      simp [number?_eq_some_iff.2 ha, splitDot_append_dot (hdot hb), number?_eq_some_iff.2 hb]

/-! ## Around a version -/

/-- A version begins with a character that is no blank and no letter. -/
theorem Written.exists_cons (h : Written cs v) : ∃ c rest, cs = c :: rest ∧ isBlank c = false ∧
    c ≠ 'v' ∧ c ≠ 'V' := by
  have hnumeral : ∀ {cs : List Char} {n : Nat}, Numeral cs n → ∀ tail, ∃ c rest,
      cs ++ tail = c :: rest ∧ isBlank c = false ∧ c ≠ 'v' ∧ c ≠ 'V' := by
    intro cs n h tail
    obtain ⟨c, rest, rfl⟩ := List.exists_cons_of_ne_nil h.ne_nil
    obtain ⟨hblank, _, hv, hV⟩ := h.of_mem List.mem_cons_self
    exact ⟨c, rest ++ tail, rfl, hblank, hv, hV⟩
  cases h with
  | major ha => simpa using hnumeral ha []
  | minor ha _ => exact hnumeral ha _
  | more _ ha _ => exact hnumeral ha _

/-- Blanks behind a version are none of it, or they stand behind its second dot. -/
theorem Written.rdropWhile (h : Written cs v) : Written (cs.rdropWhile isBlank) v := by
  have hnumeral : ∀ {ds : List Char} {n : Nat}, Numeral ds n → ∀ cs,
      (cs ++ ds).rdropWhile isBlank = cs ++ ds := fun h cs =>
    Text.rdropWhile_append_of_not_blank h.ne_nil (fun c hc => (h.of_mem hc).1) cs
  cases h with
  | @major cs _ ha =>
    rw [show cs.rdropWhile isBlank = cs by simpa using hnumeral ha []]
    exact .major ha
  | @minor cs ds _ _ ha hb =>
    rw [show (cs ++ '.' :: ds).rdropWhile isBlank = cs ++ '.' :: ds by
      simpa using hnumeral hb (cs ++ ['.'])]
    exact .minor ha hb
  | @more cs ds _ _ rest ha hb =>
    rw [show cs ++ '.' :: (ds ++ '.' :: rest) = (cs ++ '.' :: ds) ++ '.' :: rest by simp,
      Text.rdropWhile_append_cons (by decide),
      show (cs ++ '.' :: ds) ++ '.' :: rest.rdropWhile isBlank =
        cs ++ '.' :: (ds ++ '.' :: rest.rdropWhile isBlank) by simp]
    exact .more _ ha hb

theorem exists_eq_append_dropLetter (cs : List Char) :
    ∃ letter ∈ [[], ['v'], ['V']], cs = letter ++ dropLetter cs := by
  unfold dropLetter
  split
  · exact ⟨['v'], by simp, rfl⟩
  · exact ⟨['V'], by simp, rfl⟩
  · exact ⟨[], by simp, rfl⟩

theorem Written.dropLetter_append (h : Written cs v) {letter : List Char}
    (hletter : letter ∈ [[], ['v'], ['V']]) : dropLetter (letter ++ cs) = cs := by
  obtain ⟨c, rest, rfl, _, hv, hV⟩ := h.exists_cons
  rcases List.mem_cons.1 hletter with rfl | hletter
  · unfold dropLetter
    split
    · next heq => exact absurd (List.cons.inj heq).1 hv
    · next heq => exact absurd (List.cons.inj heq).1 hV
    · rfl
  · rcases List.mem_cons.1 hletter with rfl | hletter
    · rfl
    · rw [List.mem_singleton.1 hletter]
      rfl

/-- The letter and the version are what a trim leaves, but for blanks behind a second dot. -/
theorem Written.trimChars_append (h : Written cs v) {letter : List Char}
    (hletter : letter ∈ [[], ['v'], ['V']]) :
    trimChars (letter ++ cs) = letter ++ cs.rdropWhile isBlank := by
  obtain ⟨c, rest, rfl, hblank, _⟩ := h.exists_cons
  have hfirst : (letter ++ c :: rest).dropWhile isBlank = letter ++ c :: rest := by
    simp only [List.mem_cons, List.not_mem_nil, or_false] at hletter
    rcases hletter with rfl | rfl | rfl
    · rw [List.nil_append, List.dropWhile_cons_of_neg (by simp [hblank])]
    · exact List.dropWhile_cons_of_neg (by decide)
    · exact List.dropWhile_cons_of_neg (by decide)
  rw [Text.trimChars_eq, hfirst, Text.rdropWhile_append_cons hblank]
  have hrest := Text.rdropWhile_append_cons hblank [] rest
  rw [List.nil_append, List.nil_append] at hrest
  rw [hrest]

/-- **What is read of a text is the version that it names.** -/
theorem parse?_eq_some_iff {text : String} : parse? text = some v ↔ Names text v := by
  rw [parse?_eq_some_iff_written]
  constructor
  · intro h
    obtain ⟨left, right, htext, hleft, hright⟩ := Text.exists_eq_append_trimChars text.toList
    obtain ⟨letter, hletter, htrim⟩ := exists_eq_append_dropLetter (trimChars text.toList)
    refine ⟨left, letter, _, right, ?_, hleft, hright, hletter, h⟩
    rw [← htrim]
    exact htext
  · rintro ⟨left, letter, cs, right, htext, hleft, hright, hletter, h⟩
    rw [htext, Text.trimChars_append hleft hright, h.trimChars_append hletter,
      h.rdropWhile.dropLetter_append hletter]
    exact h.rdropWhile

end SealedTx.Version

namespace SealedTx.Codec

open Text (isBlank)
open Version (Names Numeral)

/-! ## The choice for a peer -/

theorem atLeast_minimumVersion_iff {v : Version} :
    v.atLeast cbor.minimumVersion = true ↔ 5 ≤ v.major := by
  show (decide (5 < v.major) || (decide (v.major = 5) && decide (0 ≤ v.minor))) = true ↔ _
  simp
  omega

/-- The newer format is chosen exactly if a version from 5 on is named. -/
theorem preferred_eq_cbor_iff {versions : List String} :
    preferred versions = .cbor ↔ ∃ text ∈ versions, ∃ v, Names text v ∧ 5 ≤ v.major := by
  have hany : (versions.filterMap Version.parse?).any (·.atLeast cbor.minimumVersion) = true ↔
      ∃ text ∈ versions, ∃ v, Names text v ∧ 5 ≤ v.major := by
    simp only [List.any_eq_true, List.mem_filterMap, Version.parse?_eq_some_iff,
      atLeast_minimumVersion_iff]
    constructor
    · rintro ⟨v, ⟨text, htext, hv⟩, hle⟩
      exact ⟨text, htext, v, hv, hle⟩
    · rintro ⟨text, htext, v, hv, hle⟩
      exact ⟨v, ⟨text, htext, hv⟩, hle⟩
  rw [preferred, ← hany]
  split <;> simp_all

/-- Lists that name the same versions get the same format. -/
theorem preferred_congr {versions versions' : List String}
    (h : ∀ text v, Names text v → (text ∈ versions ↔ text ∈ versions')) :
    preferred versions = preferred versions' := by
  have hiff : preferred versions = .cbor ↔ preferred versions' = .cbor := by
    rw [preferred_eq_cbor_iff, preferred_eq_cbor_iff]
    constructor
    · rintro ⟨text, htext, v, hv, hle⟩
      exact ⟨text, (h text v hv).1 htext, v, hv, hle⟩
    · rintro ⟨text, htext, v, hv, hle⟩
      exact ⟨text, (h text v hv).2 htext, v, hv, hle⟩
  cases hchosen : preferred versions <;> cases hchosen' : preferred versions' <;> simp_all

/-- The text of a version names it, whatever stands around it and behind a further dot. -/
theorem names_text {a b : Nat} (ha : a < 0x100000000) (hb : b < 0x100000000)
    {left letter suffix right : List Char} (hleft : ∀ c ∈ left, isBlank c = true)
    (hletter : letter ∈ [[], ['v'], ['V']])
    (hsuffix : suffix = [] ∨ ∃ rest, suffix = '.' :: rest)
    (hright : ∀ c ∈ right, isBlank c = true) :
    Names (String.ofList (left ++ (letter ++ ((Version.text ⟨a, b⟩).toList ++ suffix)) ++ right))
      ⟨a, b⟩ := by
  refine ⟨left, letter, _, right, String.toList_ofList, hleft, hright, hletter, ?_⟩
  have htext : (Version.text ⟨a, b⟩).toList =
      (toString a).toList ++ '.' :: (toString b).toList := by
    show (toString a ++ "." ++ toString b).toList = _
    simp
  have ha := Numeral.of_nat ha
  have hb := Numeral.of_nat hb
  rw [htext]
  rcases hsuffix with rfl | ⟨rest, rfl⟩
  · rw [List.append_nil]
    exact .minor ha hb
  · rw [List.append_assoc, List.cons_append]
    exact .more rest ha hb

/-- **The newer format is chosen exactly for peers that name a version from 5 on.** What a text
names is what is read of it; numbers are compared as such, so the text of any two of 32 bits is read
as these, whatever stands around it and behind a further dot. The choice goes by the versions that
are named, in whatever order, however often and beside whatever texts that name none; more texts can
only move it to the newer format. -/
theorem preferred_exact :
    (∀ versions, preferred versions = .cbor ↔
      ∃ text ∈ versions, ∃ v, Names text v ∧ 5 ≤ v.major) ∧
    (∀ text v, Version.parse? text = some v ↔ Names text v) ∧
    (∀ a b, a < 0x100000000 → b < 0x100000000 → ∀ left letter suffix right,
      (∀ c ∈ left, isBlank c = true) → letter ∈ [[], ['v'], ['V']] →
      (suffix = [] ∨ ∃ rest, suffix = '.' :: rest) → (∀ c ∈ right, isBlank c = true) →
      Version.parse? (String.ofList
        (left ++ (letter ++ ((Version.text ⟨a, b⟩).toList ++ suffix)) ++ right)) = some ⟨a, b⟩) ∧
    (∀ versions versions', (∀ text v, Names text v → (text ∈ versions ↔ text ∈ versions')) →
      preferred versions = preferred versions') ∧
    ∀ versions versions', versions ⊆ versions' → preferred versions = .cbor →
      preferred versions' = .cbor := by
  refine ⟨fun versions => preferred_eq_cbor_iff, fun text v => Version.parse?_eq_some_iff, ?_,
    fun versions versions' => preferred_congr, ?_⟩
  · intro a b ha hb left letter suffix right hleft hletter hsuffix hright
    exact Version.parse?_eq_some_iff.2 (names_text ha hb hleft hletter hsuffix hright)
  · intro versions versions' hsub h
    obtain ⟨text, htext, v, hv, hle⟩ := preferred_eq_cbor_iff.1 h
    exact preferred_eq_cbor_iff.2 ⟨text, hsub htext, v, hv, hle⟩

/-- A peer that names an old version, a text that is none and, behind a letter and with a third
part, a new one. -/
theorem preferred_exact_peer :
    Names " V5.12.rc 1" ⟨5, 12⟩ ∧ preferred ["4.9", "5.-1", " V5.12.rc 1"] = .cbor ∧
      preferred ["4.9", "5.-1"] ≠ .cbor := by
  obtain ⟨hchosen, hread, _⟩ := preferred_exact
  have hnew : Names " V5.12.rc 1" ⟨5, 12⟩ := (hread _ _).1 (by decide +kernel)
  refine ⟨hnew, (hchosen _).2 ⟨_, by simp, _, hnew, by decide⟩, ?_⟩
  rw [Ne, hchosen]
  rintro ⟨text, htext, v, hv, hle⟩
  have hv := (hread _ _).2 hv
  have hold : ∀ text ∈ ["4.9", "5.-1"], ∀ v ∈ Version.parse? text, v.major = 4 := by decide +kernel
  have hmajor : v.major = 4 := hold text htext v hv
  omega

end SealedTx.Codec
