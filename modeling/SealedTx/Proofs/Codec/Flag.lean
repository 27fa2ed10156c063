import SealedTx.Proofs.Codec.Truncation

/-!
# Payloads under another flag

Nothing marks the parts that stand behind the affected transactions: which of them are there is told
by the flag alone. A payload whose flag byte is overwritten is read by the mode of the new flag,
off the bytes that its own mode put there.

What stands before these parts is read as before. Of the parts themselves one may be taken for
another: with a mode that asks for nothing, whatever the payload's own mode asked for is taken for
the group id, and with a mode that asks for an execution hash, the group id may be taken for it.
`Reread` lists, for a payload and for the mode of the new flag, all that comes of it; what is not
listed is malformed (`decode_withFlag`).
-/

namespace SealedTx

/-- Whether a mode asks neither for an execution hash nor for mandatory recipients. -/
def PrivacyMode.AsksNothing (m : PrivacyMode) : Prop :=
  m ≠ .privateStateValidation ∧ m ≠ .mandatoryRecipients

instance (m : PrivacyMode) : Decidable m.AsksNothing := inferInstanceAs (Decidable (_ ∧ _))

theorem PrivacyMode.asks_cases (m : PrivacyMode) :
    m.AsksNothing ∨ m = .privateStateValidation ∨ m = .mandatoryRecipients := by
  cases m <;> decide

namespace Codec.Legacy

open Fields

variable {p q : Payload} {d : Draft} {f : UInt8} {m : PrivacyMode} {v y : Bytes}
  {t : Option (GroupId × Bytes)} {s : Sections}

/-! ## The flag byte -/

/-- The flag stands behind the recipients and behind the count of its field. -/
def flagPlace (p : Payload) : Nat := (upToRecipients p ++ count 1).length

/-- The bytes of a payload with another flag. -/
def withFlag (p : Payload) (f : UInt8) : Bytes := (encode p).set (flagPlace p) f

/-- All that stands behind the affected transactions. -/
def behindAffected (p : Payload) : Bytes := modePart p ++ groupIdField p.groupId

theorem encode_eq_flag (p : Payload) : encode p = (upToRecipients p ++ count 1) ++
    p.mode.flag :: (affectedFields p.affected ++ behindAffected p) := by
  rw [encode_eq_upToMode, upToMode, upToAffected, field, behindAffected]
  simp only [List.append_assoc]
  rfl

/-- The place of the flag is that of the flag. -/
theorem getElem?_flagPlace (p : Payload) : (encode p)[flagPlace p]? = some p.mode.flag := by
  rw [encode_eq_flag, flagPlace, List.getElem?_append_right (Nat.le_refl _), Nat.sub_self]
  rfl

theorem withFlag_eq (p : Payload) (f : UInt8) : withFlag p f =
    upToRecipients p ++ (field [f] ++ affectedFields p.affected ++ behindAffected p) := by
  rw [withFlag, flagPlace, encode_eq_flag, List.set_append_right _ _ (Nat.le_refl _), Nat.sub_self,
    List.set_cons_zero, field]
  simp only [List.append_assoc]
  rfl

/-! ## What may stand behind the recipients -/

/-- Behind the recipients only sections are read. -/
theorem reads_upToRecipients_append_iff (h : p.Sized) (hy : y ≠ []) :
    Reads (upToRecipients p ++ y) d ↔
      ∃ s : Sections, s.Fits ∧ s.bytes = y ∧ d = s.draft ((headOf p).draft p.recipients) := by
  constructor
  · intro hreads
    rcases hreads.cases_of_append h (List.append_nil _) with
      ⟨hb, _⟩ | ⟨hb, _⟩ | ⟨s, hs, _, hbytes, rfl⟩
    · rw [upToRecipients, List.append_assoc] at hb
      exact absurd (List.append_eq_nil_iff.1 (List.append_right_eq_self.1 hb)).2 hy
    · exact absurd (List.append_right_eq_self.1 hb) hy
    · rw [List.append_nil] at hbytes
      exact ⟨s, hs, hbytes, rfl⟩
  · rintro ⟨s, hs, rfl, rfl⟩
    show Reads ((headOf p).bytes ++ array (p.recipients.map Key.bytes) ++ s.bytes) _
    exact .sections (fits_headOf h) h.recipients hs

/-- The parts of sections are told by their bytes, as far as those are known. -/
theorem Sections.bytes_eq_iff (h : p.Sized) (hs : s.Fits) :
    s.bytes = field [f] ++ affectedFields p.affected ++ y ↔
      s.flag = [f] ∧ s.affected = p.affected.entries ∧ s.middle ++ tailBytes s.tail = y := by
  constructor
  · intro heq
    rw [Sections.bytes, affectedFields] at heq
    simp only [List.append_assoc] at heq
    obtain ⟨hflag, h₁⟩ :=
      (takes_field "" hs.flag).append_inj (takes_field "" (length_flag_lt f)) heq
    obtain ⟨hn, h₂⟩ := (takes_count "" hs.affected).append_inj (takes_count "" h.affected) h₁
    obtain ⟨haffected, h₃⟩ := (takes_readAffected hn hs.entry).append_inj
      (takes_readAffected rfl fun e he => ⟨h.txHash e he, h.securityHash e he⟩) h₂
    exact ⟨hflag, haffected, h₃⟩
  · rintro ⟨hflag, haffected, rfl⟩
    rw [Sections.bytes, affectedFields, hflag, haffected, SortedMap.size]
    simp only [List.append_assoc]

/-- The draft of a payload under another mode, with other parts behind the affected transactions. -/
def draftUnder (p : Payload) (m : PrivacyMode) (execHash : Bytes) (mandatory : List PublicKey)
    (groupId : Option GroupId) : Draft :=
  { p.toDraft with
    mode := m, execHash, mandatory := .ofList mandatory, groupId }

/-- **Under another flag** the bytes behind the affected transactions are read again, by the mode of
that flag. -/
theorem reads_withFlag_iff (h : p.Sized) : Reads (withFlag p f) d ↔
    ∃ s : Sections, s.Fits ∧ (s.flag = [f] ∧ s.affected = p.affected.entries ∧
      s.middle ++ tailBytes s.tail = behindAffected p) ∧
      d = draftUnder p (.ofFlag f) s.execHash s.mandatory
        (nonemptyGroupId (s.tail.map (·.1))) := by
  have hne : field [f] ++ affectedFields p.affected ++ behindAffected p ≠ [] := by
    simp [field_ne_nil]
  rw [withFlag_eq, reads_upToRecipients_append_iff h hne]
  refine exists_congr fun s => and_congr_right fun hs => ?_
  rw [Sections.bytes_eq_iff h hs]
  refine and_congr_right fun ⟨hflag, haffected, _⟩ => ?_
  have hdraft : s.draft ((headOf p).draft p.recipients) =
      draftUnder p (.ofFlag f) s.execHash s.mandatory (nonemptyGroupId (s.tail.map (·.1))) := by
    rw [Sections.draft, Sections.mode, hflag, haffected, SortedMap.ofList_entries]
    rfl
  rw [hdraft]

/-! ## What comes of it -/

/-- The fields of the mandatory recipients, which stand behind their number. -/
def mandatoryFields (p : Payload) : Bytes := (p.mandatory.toList.map Key.bytes).flatMap field

/-- **The drafts that a payload is read as** under a flag of some mode. -/
inductive Reread (p : Payload) : PrivacyMode → Draft → Prop
  /-- Under its own mode a payload stays what it is. -/
  | own : Reread p p.mode p.toDraft
  /-- Modes that ask for nothing do not matter to each other. -/
  | neither {m : PrivacyMode} (hp : p.mode.AsksNothing) (hm : m.AsksNothing) :
    Reread p m (draftUnder p m [] [] p.groupId)
  /-- An execution hash that is not asked for is a group id. -/
  | hashAsGroup {m : PrivacyMode} (hp : p.mode = .privateStateValidation) (hm : m.AsksNothing) :
    Reread p m (draftUnder p m [] [] (some ⟨p.execHash⟩))
  /-- Of mandatory recipients that are not asked for, as many bytes are a group id as there are
  recipients. -/
  | keysAsGroup {m : PrivacyMode} (hp : p.mode = .mandatoryRecipients) (hm : m.AsksNothing) :
    Reread p m (draftUnder p m [] [] (some ⟨(mandatoryFields p).take p.mandatory.size⟩))
  /-- A group id is the execution hash that is asked for. -/
  | groupAsHash {g : GroupId} (hp : p.mode.AsksNothing) (hg : p.groupId = some g) :
    Reread p .privateStateValidation (draftUnder p .privateStateValidation g.bytes [] none)
  /-- As many bytes of the mandatory recipients are the execution hash that is asked for, if the
  bytes behind them are a group id. -/
  | keysAsHash {t : Option (GroupId × Bytes)} (hp : p.mode = .mandatoryRecipients)
    (ht : ∀ e ∈ t, e.1.bytes.length < lengthLimit)
    (heq : tailBytes t =
      (mandatoryFields p).drop p.mandatory.size ++ groupIdField p.groupId) :
    Reread p .privateStateValidation (draftUnder p .privateStateValidation
      ((mandatoryFields p).take p.mandatory.size) [] (nonemptyGroupId (t.map (·.1))))
  /-- An execution hash and what follows are as many mandatory recipients as it has bytes, if they
  are the fields of so many keys. -/
  | hashAsKeys {ks : List PublicKey} {t : Option (GroupId × Bytes)}
    (hp : p.mode = .privateStateValidation) (hks : ks.length = p.execHash.length)
    (ht : ∀ e ∈ t, e.1.bytes.length < lengthLimit)
    (heq : (ks.map Key.bytes).flatMap field ++ tailBytes t =
      p.execHash ++ groupIdField p.groupId) :
    Reread p .mandatoryRecipients
      (draftUnder p .mandatoryRecipients [] ks (nonemptyGroupId (t.map (·.1))))

theorem draftUnder_own (p : Payload) :
    draftUnder p p.mode p.execHash p.mandatory.toList p.groupId = p.toDraft := by
  rw [draftUnder, SortedSet.ofList_toList]
  rfl

/-! ### Parts -/

theorem tailBytes_eq_nil_iff : tailBytes t = [] ↔ t = none := by
  cases t with
  | none => simp [tailBytes]
  | some e => simp [tailBytes, field_ne_nil]

theorem tailBytes_eq_field_iff (ht : ∀ e ∈ t, e.1.bytes.length < lengthLimit)
    (hv : v.length < lengthLimit) : tailBytes t = field v ++ y ↔ t = some (⟨v⟩, y) := by
  constructor
  · intro heq
    cases t with
    | none => exact absurd heq.symm (List.append_ne_nil_of_left_ne_nil (field_ne_nil v) y)
    | some e =>
      obtain ⟨hv, rfl⟩ := (takes_field "" (ht e rfl)).append_inj (takes_field "" hv) heq
      rw [← hv]
  · rintro rfl
    rfl

theorem nonemptyGroupId_some (hv : v ≠ []) : nonemptyGroupId (some ⟨v⟩) = some ⟨v⟩ :=
  nonemptyGroupId_of_ne (by simpa using hv)

/-- A group id with nothing behind it is read as it is. -/
theorem groupId_of_tailBytes {id : Option GroupId}
    (ht : ∀ e ∈ t, e.1.bytes.length < lengthLimit) (hid : ∀ g ∈ id, g.bytes.length < lengthLimit)
    (heq : tailBytes t = groupIdField id) : t.map (·.1) = id := by
  cases id with
  | none =>
    obtain rfl := tailBytes_eq_nil_iff.1 heq
    rfl
  | some g =>
    rw [groupIdField, ← List.append_nil (field _)] at heq
    obtain rfl := (tailBytes_eq_field_iff ht (hid g rfl)).1 heq
    rfl

theorem length_flatMap_field (ks : List PublicKey) :
    ((ks.map Key.bytes).flatMap field).length = (countSize + keySize) * ks.length := by
  induction ks with
  | nil => rfl
  | cons k ks ih =>
    have hk : (field k.bytes).length = countSize + keySize := by
      rw [field, List.length_append, k.length_eq, count, Bytes.length_ofNatBE]
    rw [List.map_cons, List.flatMap_cons, List.length_append, ih, hk, List.length_cons,
      Nat.mul_succ, Nat.add_comm]

theorem Sections.Fits.execHash_eq_nil (hs : s.Fits) (hm : s.mode ≠ .privateStateValidation) :
    s.execHash = [] :=
  by_contra fun he => hm (hs.execHash_iff.1 he)

theorem Sections.Fits.mandatory_eq_nil (hs : s.Fits) (hm : s.mode ≠ .mandatoryRecipients) :
    s.mandatory = [] :=
  by_contra fun he => hm (hs.mandatory_iff.1 he)

theorem Sections.middle_of_asksNothing (hm : s.mode.AsksNothing) : s.middle = [] := by
  rw [middle_eq, if_neg hm.1, if_neg hm.2]
  rfl

theorem Sections.middle_of_validating (hm : s.mode = .privateStateValidation) :
    s.middle = field s.execHash := by
  rw [Sections.middle, hm]

theorem Sections.middle_of_mandatory (hm : s.mode = .mandatoryRecipients) :
    s.middle = array (s.mandatory.map Key.bytes) := by
  rw [Sections.middle, hm]

theorem behindAffected_of_asksNothing (hp : p.mode.AsksNothing) :
    behindAffected p = groupIdField p.groupId := by
  have hmode : (sectionsOf p).mode.AsksNothing := by rwa [mode_sectionsOf]
  rw [behindAffected, ← middle_eq_modePart, Sections.middle_of_asksNothing hmode, List.nil_append]

theorem behindAffected_of_validating (hp : p.mode = .privateStateValidation) :
    behindAffected p = field p.execHash ++ groupIdField p.groupId := by
  rw [behindAffected, modePart, hp]

theorem behindAffected_of_mandatory (hp : p.mode = .mandatoryRecipients) :
    behindAffected p =
      array (p.mandatory.toList.map Key.bytes) ++ groupIdField p.groupId := by
  rw [behindAffected, modePart, hp]

theorem size_mandatory_le (p : Payload) : p.mandatory.size ≤ (mandatoryFields p).length := by
  rw [mandatoryFields, length_flatMap_field, SortedSet.toList, SortedMap.keys, List.length_map]
  exact Nat.le_mul_of_pos_left _ (by decide)

/-- The number of mandatory recipients taken for a length: so many bytes of their fields are a
field. -/
theorem array_mandatory_eq (p : Payload) : array (p.mandatory.toList.map Key.bytes) =
    field ((mandatoryFields p).take p.mandatory.size) ++
      (mandatoryFields p).drop p.mandatory.size := by
  have hsize : p.mandatory.toList.length = p.mandatory.size := by
    rw [SortedSet.toList, SortedMap.keys, List.length_map]
    rfl
  rw [field, List.length_take_of_le (size_mandatory_le p), List.append_assoc,
    List.take_append_drop, array, List.length_map, hsize]
  rfl

theorem execHash_ne_nil (hp : p.mode = .privateStateValidation) : p.execHash ≠ [] :=
  p.admitted.1.2 hp

theorem take_mandatoryFields_ne_nil (hp : p.mode = .mandatoryRecipients) :
    (mandatoryFields p).take p.mandatory.size ≠ [] := by
  intro hnil
  have hlength := List.length_take_of_le (size_mandatory_le p)
  rw [hnil, List.length_nil] at hlength
  have hempty : p.mandatory.toList = [] := by
    rw [SortedSet.toList, SortedMap.keys, List.eq_nil_of_length_eq_zero hlength.symm]
    rfl
  refine p.admitted.2.2 hp ?_
  rw [← SortedSet.ofList_toList p.mandatory, hempty]
  rfl

theorem length_take_mandatoryFields (h : p.Sized) :
    ((mandatoryFields p).take p.mandatory.size).length < lengthLimit :=
  Nat.lt_of_le_of_lt (List.length_take_le _ _) h.mandatory

/-! ### By the mode of the flag -/

section Modes

variable (h : p.Sized) (hs : s.Fits)
  (heq : s.middle ++ tailBytes s.tail = behindAffected p)

include h hs heq

/-- A mode that asks for nothing takes all of it for a group id. -/
theorem reread_of_asksNothing (hm : s.mode.AsksNothing) :
    Reread p s.mode (draftUnder p s.mode s.execHash s.mandatory
      (nonemptyGroupId (s.tail.map (·.1)))) := by
  rw [hs.execHash_eq_nil hm.1, hs.mandatory_eq_nil hm.2]
  rw [Sections.middle_of_asksNothing hm, List.nil_append] at heq
  rcases p.mode.asks_cases with hp | hp | hp
  · rw [behindAffected_of_asksNothing hp] at heq
    rw [groupId_of_tailBytes hs.groupId h.groupId heq, nonemptyGroupId_of_ne p.groupId_ne]
    exact .neither hp hm
  · rw [behindAffected_of_validating hp] at heq
    rw [(tailBytes_eq_field_iff hs.groupId h.execHash).1 heq, Option.map_some,
      nonemptyGroupId_some (execHash_ne_nil hp)]
    exact .hashAsGroup hp hm
  · rw [behindAffected_of_mandatory hp, array_mandatory_eq, List.append_assoc] at heq
    rw [(tailBytes_eq_field_iff hs.groupId (length_take_mandatoryFields h)).1 heq,
      Option.map_some, nonemptyGroupId_some (take_mandatoryFields_ne_nil hp)]
    exact .keysAsGroup hp hm

/-- A mode that validates state takes the first field of it for the execution hash. -/
theorem reread_of_validating (hm : s.mode = .privateStateValidation) :
    Reread p s.mode (draftUnder p s.mode s.execHash s.mandatory
      (nonemptyGroupId (s.tail.map (·.1)))) := by
  have hmandatory : s.mandatory = [] := hs.mandatory_eq_nil (by rw [hm]; decide)
  rw [Sections.middle_of_validating hm] at heq
  have htakes := takes_field "" hs.execHash
  rcases p.mode.asks_cases with hp | hp | hp
  · rw [behindAffected_of_asksNothing hp] at heq
    cases hg : p.groupId with
    | none =>
      rw [hg] at heq
      exact absurd heq (List.append_ne_nil_of_left_ne_nil (field_ne_nil _) _)
    | some g =>
      rw [hg, groupIdField, ← List.append_nil (field g.bytes)] at heq
      obtain ⟨hhash, htail⟩ := htakes.append_inj (takes_field "" (h.groupId g hg)) heq
      rw [hhash, hmandatory, hm, tailBytes_eq_nil_iff.1 htail]
      exact .groupAsHash hp hg
  · rw [behindAffected_of_validating hp] at heq
    obtain ⟨hhash, htail⟩ := htakes.append_inj (takes_field "" h.execHash) heq
    have hnone : p.mandatory.toList = [] := by
      have hfits := (fits_sectionsOf h).mandatory_eq_nil
      rw [mode_sectionsOf, hp] at hfits
      exact hfits (by decide)
    rw [hhash, hmandatory, ← hnone, groupId_of_tailBytes hs.groupId h.groupId htail,
      nonemptyGroupId_of_ne p.groupId_ne, show s.mode = p.mode by rw [hm, hp], draftUnder_own]
    exact .own
  · rw [behindAffected_of_mandatory hp, array_mandatory_eq, List.append_assoc] at heq
    obtain ⟨hhash, htail⟩ :=
      htakes.append_inj (takes_field "" (length_take_mandatoryFields h)) heq
    rw [hhash, hmandatory, hm]
    exact .keysAsHash hp hs.groupId htail

/-- A mode that has mandatory recipients takes the first array of it for them. -/
theorem reread_of_mandatory (hm : s.mode = .mandatoryRecipients) :
    Reread p s.mode (draftUnder p s.mode s.execHash s.mandatory
      (nonemptyGroupId (s.tail.map (·.1)))) := by
  have hexecHash : s.execHash = [] := hs.execHash_eq_nil (by rw [hm]; decide)
  rw [Sections.middle_of_mandatory hm] at heq
  rcases p.mode.asks_cases with hp | hp | hp
  · rw [behindAffected_of_asksNothing hp] at heq
    cases hg : p.groupId with
    | none =>
      rw [hg] at heq
      exact absurd heq (List.append_ne_nil_of_left_ne_nil (array_ne_nil _) _)
    | some g =>
      -- a group id has fewer bytes than the fields of so many keys
      rw [hg, groupIdField, array, field, List.length_map, List.append_assoc] at heq
      obtain ⟨hlength, hrest⟩ := (takes_count "" hs.mandatory).append_inj
        (takes_count "" (h.groupId g hg)) heq
      have hbytes := congrArg List.length hrest
      rw [List.length_append, length_flatMap_field, ← hlength, countSize, keySize] at hbytes
      have hpos : 0 < s.mandatory.length :=
        List.length_pos_iff.2 (hs.mandatory_iff.2 hm)
      omega
  · rw [behindAffected_of_validating hp, array, field, List.length_map, List.append_assoc,
      List.append_assoc] at heq
    obtain ⟨hlength, hrest⟩ := (takes_count "" hs.mandatory).append_inj
      (takes_count "" h.execHash) heq
    rw [hexecHash, hm]
    exact .hashAsKeys hp hlength hs.groupId hrest
  · rw [behindAffected_of_mandatory hp] at heq
    obtain ⟨hkeys, htail⟩ := (takes_keyArray hs.mandatory).append_inj
      (takes_keyArray h.length_mandatory) heq
    have hnone : p.execHash = [] := by
      have hfits := (fits_sectionsOf h).execHash_eq_nil
      rw [mode_sectionsOf, hp] at hfits
      exact hfits (by decide)
    rw [hexecHash, ← hnone, hkeys, groupId_of_tailBytes hs.groupId h.groupId htail,
      nonemptyGroupId_of_ne p.groupId_ne, show s.mode = p.mode by rw [hm, hp], draftUnder_own]
    exact .own

end Modes

/-! ### And back -/

/-- Parts that fit a mode and make up the bytes behind the affected transactions are read off them
under a flag of that mode. -/
theorem reads_withFlag_of_parts (h : p.Sized) (hf : .ofFlag f = m) {e : Bytes}
    {ks : List PublicKey} (he : e.length < lengthLimit)
    (hhash : e ≠ [] ↔ m = .privateStateValidation) (hks : ks.length < lengthLimit)
    (hkeys : ks ≠ [] ↔ m = .mandatoryRecipients) (ht : ∀ e ∈ t, e.1.bytes.length < lengthLimit)
    (heq : (if m = .privateStateValidation then field e else []) ++
      (if m = .mandatoryRecipients then array (ks.map Key.bytes) else []) ++ tailBytes t =
        behindAffected p) :
    Reads (withFlag p f) (draftUnder p m e ks (nonemptyGroupId (t.map (·.1)))) := by
  subst hf
  refine (reads_withFlag_iff h).2 ⟨⟨[f], p.affected.entries, e, ks, t⟩, ?_, ⟨rfl, rfl, ?_⟩, rfl⟩
  · exact ⟨length_flag_lt f, h.affected, fun e he => ⟨h.txHash e he, h.securityHash e he⟩, he,
      hhash, hks, hkeys, ht⟩
  · rw [middle_eq]
    exact heq

/-- A mode that asks for nothing reads whatever is a group id with something behind it. -/
theorem reads_withFlag_of_asksNothing (h : p.Sized) (hf : .ofFlag f = m) (hm : m.AsksNothing)
    (ht : ∀ e ∈ t, e.1.bytes.length < lengthLimit) (heq : tailBytes t = behindAffected p) :
    Reads (withFlag p f) (draftUnder p m [] [] (nonemptyGroupId (t.map (·.1)))) := by
  refine reads_withFlag_of_parts h hf (by decide) ?_ (by decide) ?_ ht ?_
  · exact iff_of_false (fun hne => hne rfl) hm.1
  · exact iff_of_false (fun hne => hne rfl) hm.2
  · rw [if_neg hm.1, if_neg hm.2]
    exact heq

/-- All that is listed is read. -/
theorem reads_of_reread (h : p.Sized) (hr : Reread p m d) (hf : .ofFlag f = m) :
    Reads (withFlag p f) d := by
  have hgroup : ∀ e ∈ (sectionsOf p).tail, e.1.bytes.length < lengthLimit :=
    (fits_sectionsOf h).groupId
  have hid : nonemptyGroupId ((sectionsOf p).tail.map (·.1)) = p.groupId := by
    rw [groupId_of_tailBytes hgroup h.groupId (tailBytes_sectionsOf p)]
    exact nonemptyGroupId_of_ne p.groupId_ne
  cases hr with
  | own =>
    have hfits := fits_sectionsOf h
    have hmode := mode_sectionsOf p
    rw [← draftUnder_own, ← hid]
    refine reads_withFlag_of_parts h hf h.execHash ?_ h.length_mandatory ?_ hgroup ?_
    · rw [← hmode]
      exact hfits.execHash_iff
    · rw [← hmode]
      exact hfits.mandatory_iff
    · rw [tailBytes_sectionsOf, behindAffected, ← middle_eq_modePart, middle_eq, hmode]
      rfl
  | neither hp hm =>
    rw [← hid]
    refine reads_withFlag_of_asksNothing h hf hm hgroup ?_
    rw [tailBytes_sectionsOf, behindAffected_of_asksNothing hp]
  | hashAsGroup hp hm =>
    rw [← nonemptyGroupId_some (execHash_ne_nil hp)]
    refine reads_withFlag_of_asksNothing (t := some (⟨p.execHash⟩, groupIdField p.groupId)) h hf hm
      (fun e he => ?_) (behindAffected_of_validating hp).symm
    cases he
    exact h.execHash
  | keysAsGroup hp hm =>
    rw [← nonemptyGroupId_some (take_mandatoryFields_ne_nil hp)]
    refine reads_withFlag_of_asksNothing h hf hm
      (t := some (⟨_⟩, (mandatoryFields p).drop p.mandatory.size ++ groupIdField p.groupId))
      (fun e he => ?_) ?_
    · cases he
      exact length_take_mandatoryFields h
    · rw [behindAffected_of_mandatory hp, array_mandatory_eq, List.append_assoc]
      rfl
  | @groupAsHash g hp hg =>
    refine reads_withFlag_of_parts (t := none) h hf (h.groupId g hg) ?_ (by decide) ?_ nofun ?_
    · refine iff_of_true (fun hnil => p.groupId_ne ?_) rfl
      rw [hg, ← hnil]
    · exact iff_of_false (fun hne => hne rfl) (by decide)
    · rw [behindAffected_of_asksNothing hp, hg]
      simp [groupIdField, tailBytes]
  | @keysAsHash t hp ht heq =>
    refine reads_withFlag_of_parts h hf (length_take_mandatoryFields h) ?_ (by decide) ?_ ht ?_
    · exact iff_of_true (take_mandatoryFields_ne_nil hp) rfl
    · exact iff_of_false (fun hne => hne rfl) (by decide)
    · rw [behindAffected_of_mandatory hp, array_mandatory_eq, heq]
      simp
  | @hashAsKeys ks t hp hks ht heq =>
    have hlength : ks.length < lengthLimit := by
      rw [hks]
      exact h.execHash
    refine reads_withFlag_of_parts h hf (by decide) ?_ hlength ?_ ht ?_
    · exact iff_of_false (fun hne => hne rfl) (by decide)
    · refine iff_of_true ?_ rfl
      rw [← List.length_pos_iff, hks, List.length_pos_iff]
      exact execHash_ne_nil hp
    · have hbytes : field p.execHash ++ groupIdField p.groupId =
          array (ks.map Key.bytes) ++ tailBytes t := by
        rw [field, List.append_assoc, ← heq, array, List.length_map, hks, List.append_assoc]
      rw [behindAffected_of_validating hp, hbytes]
      simp

theorem reads_withFlag_iff_reread (h : p.Sized) :
    Reads (withFlag p f) d ↔ Reread p (.ofFlag f) d := by
  constructor
  · intro hreads
    obtain ⟨s, hs, ⟨hflag, _, heq⟩, rfl⟩ := (reads_withFlag_iff h).1 hreads
    have hmode : s.mode = .ofFlag f := by rw [Sections.mode, hflag]; rfl
    rw [← hmode]
    rcases s.mode.asks_cases with hm | hm | hm
    · exact reread_of_asksNothing h hs heq hm
    · exact reread_of_validating h hs heq hm
    · exact reread_of_mandatory h hs heq hm
  · intro hr
    exact reads_of_reread h hr rfl

/-! ## The whole payload -/

/-- Of a payload that asks for nothing, and under a flag of its own mode, no part is taken for
another one but the group id for an execution hash. -/
theorem Reread.keeps (hr : Reread p m d) (hp : p.mode.AsksNothing ∨ p.mode = m) :
    (d.groupId = none ∨ d.groupId = p.groupId) ∧
    (d.mandatory = .empty ∨ d.mandatory = p.mandatory) ∧
    (d.execHash = [] ∨ d.execHash = p.execHash ∨
      d.groupId = none ∧ p.groupId = some ⟨d.execHash⟩) := by
  cases hr with
  | own => exact ⟨.inr rfl, .inr rfl, .inr (.inl rfl)⟩
  | neither _ _ => exact ⟨.inr rfl, .inl rfl, .inl rfl⟩
  | groupAsHash _ hg => exact ⟨.inl rfl, .inl rfl, .inr (.inr ⟨rfl, hg⟩)⟩
  | hashAsGroup hmode hm =>
    rcases hp with hp | rfl
    · exact absurd hmode hp.1
    · exact absurd hmode hm.1
  | keysAsGroup hmode hm =>
    rcases hp with hp | rfl
    · exact absurd hmode hp.2
    · exact absurd hmode hm.2
  | keysAsHash hmode _ _ =>
    rw [hmode] at hp
    rcases hp with hp | hp
    · exact absurd rfl hp.2
    · cases hp
  | hashAsKeys hmode _ _ _ =>
    rw [hmode] at hp
    rcases hp with hp | hp
    · exact absurd rfl hp.1
    · cases hp

/-- **A changed flag** has the bytes behind the affected transactions read by its mode, with the
payloads that are listed as the only ones that may come of it; all else is malformed. Parts are
taken for other ones, except that a payload that asks for nothing, or one that is read by its own
mode, keeps its group id or gives it up as an execution hash. -/
theorem decode_withFlag (h : p.Sized) (f : UInt8) :
    (∀ q, decode (withFlag p f) = .ok q ↔ Reread p (.ofFlag f) q.toDraft) ∧
    ((∃ reason, decode (withFlag p f) = .error (.malformedPayload reason)) ↔
      ¬∃ d, Reread p (.ofFlag f) d) ∧
    ∀ q, decode (withFlag p f) = .ok q → p.mode.AsksNothing ∨ p.mode = .ofFlag f →
      (q.groupId = none ∨ q.groupId = p.groupId) ∧
      (q.mandatory = .empty ∨ q.mandatory = p.mandatory) ∧
      (q.execHash = [] ∨ q.execHash = p.execHash ∨
        q.groupId = none ∧ p.groupId = some ⟨q.execHash⟩) := by
  have hread : ∀ q, decode (withFlag p f) = .ok q ↔ Reread p (.ofFlag f) q.toDraft := by
    intro q
    rw [decode_eq_ok_iff, reads_withFlag_iff_reread h]
  refine ⟨hread, ?_, fun q hq hp => ((hread q).1 hq).keeps hp⟩
  rw [Outcome.exists_error_iff fun e => malformed_of_decode]
  -- what is read builds a payload, so a draft is as good as one
  refine not_congr ⟨?_, ?_⟩
  · rintro ⟨q, hq⟩
    exact ⟨_, (hread q).1 hq⟩
  · rintro ⟨d, hd⟩
    obtain ⟨q, rfl⟩ := ((reads_withFlag_iff_reread h).2 hd).exists_payload
    exact ⟨q, (hread q).2 hd⟩

/-- A payload whose two recipients have to be included. -/
def keyedPayload : Payload :=
  { beforePrivacy samplePayload samplePayload.recipients with
    mode := .mandatoryRecipients
    mandatory := .ofList samplePayload.recipients
    admitted := by
      unfold PrivacyMode.Admits
      decide }

/-- Under a flag of no mode the number of mandatory recipients makes a group id of the first two
bytes behind it; a payload that asks for nothing is malformed under the flag that asks for them. -/
theorem decode_withFlag_keyed :
    (keyedPayload.Sized ∧ ∃ q, decode (withFlag keyedPayload 9) = .ok q ∧
      q.groupId = some ⟨[0, 0]⟩ ∧ q.execHash = [] ∧ q.mandatory = .empty) ∧
    ((beforePrivacy samplePayload []).Sized ∧
      ∃ reason, decode (withFlag (beforePrivacy samplePayload []) 2) =
        .error (.malformedPayload reason)) := by
  have hkeyed : keyedPayload.Sized := by decide
  have hplain : (beforePrivacy samplePayload []).Sized := by decide
  refine ⟨⟨hkeyed, ?_⟩, hplain, ?_⟩
  · have hread : Reread keyedPayload (.ofFlag 9) (draftUnder keyedPayload (.ofFlag 9) [] [] _) :=
      .keysAsGroup rfl (by decide)
    obtain ⟨q, hq⟩ := ((reads_withFlag_iff_reread hkeyed).2 hread).exists_payload
    rw [← hq] at hread
    refine ⟨q, ((decode_withFlag hkeyed 9).1 q).2 hread, ?_, ?_, ?_⟩
    · rw [show q.groupId = q.toDraft.groupId from rfl, hq]
      decide +kernel
    · rw [show q.execHash = q.toDraft.execHash from rfl, hq]
      rfl
    · rw [show q.mandatory = q.toDraft.mandatory from rfl, hq]
      rfl
  · refine ((decode_withFlag hplain 2).2.1).2 ?_
    rintro ⟨d, hd⟩
    generalize hm : PrivacyMode.ofFlag 2 = m at hd
    cases hd with
    | own => exact absurd hm (by decide)
    | neither _ hasks | hashAsGroup _ hasks | keysAsGroup _ hasks => exact hasks.2 hm.symm
    | groupAsHash _ hg => cases hg
    | keysAsHash hmode _ _ => cases hmode
    | hashAsKeys hmode _ _ _ => cases hmode

/-- The execution hash of a payload without a group is its group id once the flag is zero. -/
theorem withFlag_moves_execHash :
    (withoutGroup samplePayload).Sized ∧ (withoutGroup samplePayload).groupId = none ∧
    ∃ q, decode (withFlag (withoutGroup samplePayload) 0) = .ok q ∧
      q.groupId = some ⟨(withoutGroup samplePayload).execHash⟩ ∧
      ¬(q.groupId = none ∨ q.groupId = (withoutGroup samplePayload).groupId) := by
  have h : (withoutGroup samplePayload).Sized := by decide
  have hreads := reads_of_reread (f := 0) h (.hashAsGroup rfl (by decide)) rfl
  obtain ⟨q, hq⟩ := hreads.exists_payload
  rw [← hq] at hreads
  have hgroup : q.groupId = some ⟨(withoutGroup samplePayload).execHash⟩ :=
    congrArg (fun d => d.groupId) hq
  refine ⟨h, rfl, q, decode_eq_ok_iff.2 hreads, hgroup, ?_⟩
  rw [hgroup]
  decide

end Codec.Legacy

end SealedTx
