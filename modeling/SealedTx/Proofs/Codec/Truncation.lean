import SealedTx.Proofs.Codec.Detect

/-!
# Payloads that are cut short

The field format grew at its end, so a payload may end where it ended once: behind the recipient
nonce, behind the recipients, and before the group id. Cut short at one of these places it is read
as the payload without its later parts. Cut at any other place it is malformed, also right before
the execution hash or the mandatory recipients, although both are only read if bytes are left: the
mode asks for them (`decode_of_cut`).

Whatever is read off the bytes that are left is a byte string of the grammar, and no part of the
grammar is the beginning of another one. So its parts are those of the payload, as far as they go
(`Head.bytes_append_inj`, `Sections.bytes_append_inj`), and only where it ends is open.
-/

namespace SealedTx.Codec.Legacy

open Fields

/-! ## No part begins another one -/

section Parts

variable {x y : Bytes}

theorem Head.takes_bytes {h : Head} (hh : h.Fits) : readHead.Takes h.bytes (h.draft []) :=
  fun _ => run_readHead_iff.2 ⟨h, hh, rfl, rfl⟩

theorem takes_keyArray {ks : List PublicKey} (hks : ks.length < lengthLimit) :
    Reader.Takes (do (← readArray "").mapM (readKey "")) (array (ks.map Key.bytes)) ks :=
  fun _ => run_keyArray_iff.2 ⟨hks, rfl⟩

theorem takes_readAffected {l : List (TxHash × SecurityHash)} {n : Nat} (hn : l.length = n)
    (hl : ∀ e ∈ l, e.1.bytes.length < lengthLimit ∧ e.2.bytes.length < lengthLimit) :
    (readAffected n).Takes (l.flatMap fun e => field e.1.bytes ++ field e.2.bytes) l :=
  fun _ => run_readAffected_iff.2 ⟨hn, hl, rfl⟩

theorem takes_readExecHash {mode : PrivacyMode} {e : Bytes}
    (he : e ≠ [] ↔ mode = .privateStateValidation) (hlength : e.length < lengthLimit) :
    (readExecHash mode).Takes (if mode = .privateStateValidation then field e else []) e :=
  fun _ => (run_readExecHash_iff he).2 ⟨hlength, rfl⟩

theorem takes_readMandatory {mode : PrivacyMode} {ks : List PublicKey}
    (hks : ks ≠ [] ↔ mode = .mandatoryRecipients) (hlength : ks.length < lengthLimit) :
    (readMandatory mode).Takes
      (if mode = .mandatoryRecipients then array (ks.map Key.bytes) else []) ks :=
  fun _ => (run_readMandatory_iff hks).2 ⟨hlength, rfl⟩

theorem Head.draft_inj {h h' : Head} (heq : h.draft [] = h'.draft []) : h = h' := by
  cases h
  cases h'
  simp_all [Head.draft]

theorem Head.bytes_append_inj {h h' : Head} (hh : h.Fits) (hh' : h'.Fits)
    (heq : h.bytes ++ x = h'.bytes ++ y) : h = h' ∧ x = y := by
  obtain ⟨hdraft, hrest⟩ := (takes_bytes hh).append_inj (takes_bytes hh') heq
  exact ⟨draft_inj hdraft, hrest⟩

/-- Sections are told by their bytes up to the group id. -/
theorem Sections.bytes_append_inj {s s' : Sections} (hs : s.Fits) (hs' : s'.Fits)
    (heq : s.bytes ++ x = s'.bytes ++ y) :
    { s with tail := none } = { s' with tail := none } ∧
      tailBytes s.tail ++ x = tailBytes s'.tail ++ y := by
  rw [Sections.bytes, Sections.bytes, middle_eq, middle_eq] at heq
  simp only [List.append_assoc] at heq
  obtain ⟨hflag, h₁⟩ := (takes_field "" hs.flag).append_inj (takes_field "" hs'.flag) heq
  obtain ⟨hn, h₂⟩ := (takes_count "" hs.affected).append_inj (takes_count "" hs'.affected) h₁
  obtain ⟨haffected, h₃⟩ := (takes_readAffected hn hs.entry).append_inj
    (takes_readAffected rfl hs'.entry) h₂
  -- one flag is one mode, so one reader takes both execution hashes, and one both key lists
  have hmode : s'.mode = s.mode := by rw [mode, mode, hflag]
  have hexecHash := hs'.execHash_iff
  have hmandatory := hs'.mandatory_iff
  rw [hmode] at hexecHash hmandatory h₃
  obtain ⟨hexec, h₄⟩ := (takes_readExecHash hs.execHash_iff hs.execHash).append_inj
    (takes_readExecHash hexecHash hs'.execHash) h₃
  obtain ⟨hkeys, h₅⟩ := (takes_readMandatory hs.mandatory_iff hs.mandatory).append_inj
    (takes_readMandatory hmandatory hs'.mandatory) h₄
  refine ⟨?_, h₅⟩
  rw [hflag, haffected, hexec, hkeys]

/-- A cut is behind the group id or just before it. -/
theorem tailBytes_append_eq {t : Option (GroupId × Bytes)} {id : Option GroupId}
    (ht : ∀ e ∈ t, e.1.bytes.length < lengthLimit) (hid : ∀ g ∈ id, g.bytes.length < lengthLimit)
    (hx : x ≠ []) (heq : tailBytes t ++ x = groupIdField id) : t = none ∧ id ≠ none := by
  cases id with
  | none =>
    exact absurd (List.append_eq_nil_iff.1 heq).2 hx
  | some g =>
    refine ⟨?_, nofun⟩
    cases t with
    | none => rfl
    | some e =>
      have hfield : field e.1.bytes ++ (e.2 ++ x) = field g.bytes ++ [] := by
        rw [← List.append_assoc, List.append_nil]
        exact heq
      obtain ⟨_, hnil⟩ := (takes_field "" (ht e rfl)).append_inj (takes_field "" (hid g rfl)) hfield
      exact absurd (List.append_eq_nil_iff.1 hnil).2 hx

end Parts

/-! ## Where a payload may end -/

section Ends

variable (p : Payload)

def upToRecipientNonce : Bytes :=
  field p.sender.bytes ++ field p.cipherText ++ field p.nonce.bytes ++
    array (p.boxes.map Blob.bytes) ++ field p.recipientNonce.bytes

def upToRecipients : Bytes := upToRecipientNonce p ++ array (p.recipients.map Key.bytes)

def upToAffected : Bytes :=
  upToRecipients p ++ field [p.mode.flag] ++ affectedFields p.affected

/-- What the mode asks for, if it asks for anything. -/
def modePart : Bytes :=
  match p.mode with
  | .standardPrivate | .partyProtection => []
  | .mandatoryRecipients => array (p.mandatory.toList.map Key.bytes)
  | .privateStateValidation => field p.execHash

/-- All that comes before a group id. -/
def upToMode : Bytes := upToAffected p ++ modePart p

theorem middle_eq_modePart : (sectionsOf p).middle = modePart p := by
  unfold Sections.middle modePart
  rw [mode_sectionsOf]
  cases p.mode <;> rfl

theorem encode_eq_upToMode : encode p = upToMode p ++ groupIdField p.groupId := by
  rw [encode_eq, Sections.bytes, middle_eq_modePart, tailBytes_sectionsOf]
  simp only [upToMode, upToAffected, affectedFields, ← List.append_assoc]
  rfl

/-- A payload with no parts but the first ones, and the others as they are by default. -/
def beforePrivacy (recipients : List PublicKey) : Payload where
  sender := p.sender
  cipherText := p.cipherText
  nonce := p.nonce
  boxes := p.boxes
  recipientNonce := p.recipientNonce
  recipients := recipients
  admitted := PrivacyMode.admits_nothing
  groupId_ne := by decide

def withoutGroup : Payload := { p with groupId := none, groupId_ne := by decide }

theorem encode_withoutGroup : encode (withoutGroup p) = upToMode p := by
  rw [encode_eq_upToMode]
  exact List.append_nil _

variable {p}

theorem sized_withoutGroup (h : p.Sized) : (withoutGroup p).Sized where
  __ := h
  groupId := by simp [withoutGroup]

end Ends

/-- The places where payloads ended before the format grew, and where those without a group do. -/
inductive Ending where
  | recipientNonce
  | recipients
  | mode

namespace Ending

/-- The bytes of a payload up to a place. -/
def bytes (p : Payload) : Ending → Bytes
  | recipientNonce => upToRecipientNonce p
  | recipients => upToRecipients p
  | mode => upToMode p

/-- The payload whose parts behind a place are as they are by default. -/
def payload (p : Payload) : Ending → Payload
  | recipientNonce => beforePrivacy p []
  | recipients => beforePrivacy p p.recipients
  | mode => withoutGroup p

/-- Whether bytes of a payload come behind a place. -/
def Cuts (p : Payload) : Ending → Prop
  | recipientNonce | recipients => True
  | mode => p.groupId ≠ none

variable {p : Payload}

/-- The places behind which bytes come are those where proper prefixes end. -/
theorem cuts_iff (e : Ending) :
    e.Cuts p ↔ e.bytes p <+: encode p ∧ e.bytes p ≠ encode p := by
  have hcut : ∀ {x y : Bytes}, encode p = x ++ y →
      (x <+: encode p ∧ x ≠ encode p ↔ y ≠ []) := by
    intro x y heq
    rw [heq, Ne, List.self_eq_append_right]
    exact and_iff_right (List.prefix_append x y)
  cases e with
  | recipientNonce =>
    have heq : encode p = upToRecipientNonce p ++
        (array (p.recipients.map Key.bytes) ++ (sectionsOf p).bytes) := by
      rw [encode_eq, List.append_assoc]
      rfl
    exact iff_of_true trivial
      ((hcut heq).2 (List.append_ne_nil_of_left_ne_nil (array_ne_nil _) _))
  | recipients =>
    have hsections : (sectionsOf p).bytes ≠ [] := by
      rw [Sections.bytes]
      simp [field_ne_nil]
    exact iff_of_true trivial ((hcut (encode_eq p)).2 hsections)
  | mode =>
    refine Iff.trans ?_ (hcut (encode_eq_upToMode p)).symm
    show p.groupId ≠ none ↔ _
    cases p.groupId with
    | none => simp [groupIdField]
    | some g => simp [groupIdField, field_ne_nil]

theorem reads_bytes (h : p.Sized) (e : Ending) : Reads (e.bytes p) (e.payload p).toDraft := by
  cases e with
  | recipientNonce =>
    show Reads (headOf p).bytes ((headOf p).draft [])
    exact .head (fits_headOf h)
  | recipients =>
    show Reads ((headOf p).bytes ++ array (p.recipients.map Key.bytes))
      ((headOf p).draft p.recipients)
    exact .recipients (fits_headOf h) h.recipients
  | mode =>
    show Reads (upToMode p) (withoutGroup p).toDraft
    rw [← encode_withoutGroup]
    exact reads_encode (sized_withoutGroup h)

end Ending

/-! ## What is read of a payload that is cut short -/

section Cut

variable {p : Payload} {b t : Bytes}

/-- What is read off bytes that go on as a payload does up to its recipients has the parts of the
payload, as far as the bytes go. -/
theorem Reads.cases_of_append (h : p.Sized) {x : Bytes} {d : Draft} (hreads : Reads b d)
    (heq : b ++ t = upToRecipients p ++ x) :
    (b = upToRecipientNonce p ∧ d = (headOf p).draft []) ∨
    (b = upToRecipients p ∧ d = (headOf p).draft p.recipients) ∨
    ∃ s : Sections, s.Fits ∧ b = upToRecipients p ++ s.bytes ∧ s.bytes ++ t = x ∧
      d = s.draft ((headOf p).draft p.recipients) := by
  have hparts : upToRecipients p ++ x =
      (headOf p).bytes ++ (array (p.recipients.map Key.bytes) ++ x) := by
    rw [← List.append_assoc]
    rfl
  rw [hparts] at heq
  cases hreads with
  | @head h' hh =>
    obtain ⟨rfl, _⟩ := Head.bytes_append_inj hh (fits_headOf h) heq
    exact .inl ⟨rfl, rfl⟩
  | @recipients h' ks hh hks =>
    rw [List.append_assoc] at heq
    obtain ⟨rfl, hkeys⟩ := Head.bytes_append_inj hh (fits_headOf h) heq
    obtain ⟨rfl, _⟩ := (takes_keyArray hks).append_inj (takes_keyArray h.recipients) hkeys
    exact .inr (.inl ⟨rfl, rfl⟩)
  | @sections h' ks s hh hks hs =>
    rw [List.append_assoc, List.append_assoc] at heq
    obtain ⟨rfl, hkeys⟩ := Head.bytes_append_inj hh (fits_headOf h) heq
    obtain ⟨rfl, hsections⟩ := (takes_keyArray hks).append_inj (takes_keyArray h.recipients) hkeys
    exact .inr (.inr ⟨s, hs, rfl, hsections, rfl⟩)

/-- Only at the places where payloads may end is there something to read. -/
theorem reads_cut_iff (h : p.Sized) (ht : t ≠ []) (hbt : b ++ t = encode p) {d : Draft} :
    Reads b d ↔ ∃ e : Ending, e.Cuts p ∧ b = e.bytes p ∧ d = (e.payload p).toDraft := by
  constructor
  · intro hreads
    have heq : b ++ t = upToRecipients p ++ (sectionsOf p).bytes := hbt.trans (encode_eq p)
    rcases hreads.cases_of_append h heq with ⟨rfl, rfl⟩ | ⟨rfl, rfl⟩ | ⟨s, hs, rfl, hsections, rfl⟩
    · exact ⟨.recipientNonce, trivial, rfl, rfl⟩
    · exact ⟨.recipients, trivial, rfl, rfl⟩
    · rw [← List.append_nil (sectionsOf p).bytes] at hsections
      obtain ⟨hparts, htail⟩ := Sections.bytes_append_inj hs (fits_sectionsOf h) hsections
      rw [List.append_nil, tailBytes_sectionsOf] at htail
      obtain ⟨hnone, hgroup⟩ := tailBytes_append_eq hs.groupId h.groupId ht htail
      -- with no group id the sections are those of the payload without one
      have hs' : s = sectionsOf (withoutGroup p) := by
        rw [← show { s with tail := none } = s by rw [← hnone], hparts]
        rfl
      refine ⟨.mode, hgroup, ?_, ?_⟩
      · rw [hs']
        show _ = upToMode p
        rw [← encode_withoutGroup, encode_eq]
        rfl
      · rw [hs']
        exact draft_sectionsOf (withoutGroup p)
  · rintro ⟨e, _, rfl, rfl⟩
    exact e.reads_bytes h

theorem upToAffected_ne (hmode : p.mode = .privateStateValidation ∨ p.mode = .mandatoryRecipients)
    (e : Ending) : upToAffected p ≠ e.bytes p := by
  have happend : ∀ {x y z : Bytes}, y ≠ [] → x ++ y ++ z ≠ x := by
    intro x y z hy heq
    rw [List.append_assoc] at heq
    exact hy (List.append_eq_nil_iff.1 (List.append_right_eq_self.1 heq)).1
  cases e with
  | recipientNonce =>
    show upToRecipients p ++ field [p.mode.flag] ++ affectedFields p.affected ≠ upToRecipientNonce p
    rw [List.append_assoc]
    exact happend (array_ne_nil _)
  | recipients => exact happend (field_ne_nil _)
  | mode =>
    intro heq
    have hnil : modePart p = [] := List.append_right_eq_self.1 heq.symm
    unfold modePart at hnil
    rcases hmode with hmode | hmode
    · rw [hmode] at hnil
      exact field_ne_nil _ hnil
    · rw [hmode] at hnil
      exact array_ne_nil _ hnil

/-- **A payload that is cut short is malformed**, unless it is cut where payloads may end, before a
part that was there; it is then read without its later parts. -/
theorem decode_of_cut (h : p.Sized) (hb : b <+: encode p) (hne : b ≠ encode p) :
    (∀ q, decode b = .ok q ↔ ∃ e : Ending, e.Cuts p ∧ b = e.bytes p ∧ q = e.payload p) ∧
    ((∀ e : Ending, e.Cuts p → b ≠ e.bytes p) →
      ∃ reason, decode b = .error (.malformedPayload reason)) ∧
    (p.mode = .privateStateValidation ∨ p.mode = .mandatoryRecipients → b = upToAffected p →
      ∃ reason, decode b = .error (.malformedPayload reason)) := by
  obtain ⟨t, hbt⟩ := hb
  have ht : t ≠ [] := by
    rintro rfl
    exact hne (by rw [← hbt, List.append_nil])
  have hok : ∀ q, decode b = .ok q ↔
      ∃ e : Ending, e.Cuts p ∧ b = e.bytes p ∧ q = e.payload p := by
    intro q
    rw [decode_eq_ok_iff, reads_cut_iff h ht hbt]
    simp only [Payload.toDraft_inj]
  have herror : (∀ e : Ending, e.Cuts p → b ≠ e.bytes p) →
      ∃ reason, decode b = .error (.malformedPayload reason) := by
    intro hends
    cases hdecode : decode b with
    | ok q =>
      obtain ⟨e, he, hbytes, _⟩ := (hok q).1 hdecode
      exact absurd hbytes (hends e he)
    | error err =>
      obtain ⟨reason, rfl⟩ := malformed_of_decode hdecode
      exact ⟨reason, rfl⟩
  refine ⟨hok, herror, fun hmode haffected => herror fun e _ => ?_⟩
  rw [haffected]
  exact upToAffected_ne hmode e

end Cut

/-- A payload that validates state is read if it is cut before its group id, and malformed if it is
cut before its execution hash. -/
theorem decode_of_cut_sample :
    samplePayload.Sized ∧
      (upToMode samplePayload <+: encode samplePayload ∧
        upToMode samplePayload ≠ encode samplePayload ∧
        decode (upToMode samplePayload) = .ok (withoutGroup samplePayload)) ∧
      (upToAffected samplePayload <+: encode samplePayload ∧
        upToAffected samplePayload ≠ encode samplePayload ∧
        ∃ reason, decode (upToAffected samplePayload) = .error (.malformedPayload reason)) := by
  have h : samplePayload.Sized := by decide
  have hgroup : Ending.mode.Cuts samplePayload := by
    show samplePayload.groupId ≠ none
    decide
  obtain ⟨hb, hne⟩ := Ending.mode.cuts_iff.1 hgroup
  have hok := (decode_of_cut h hb hne).1 (withoutGroup samplePayload)
  have hcut : upToAffected samplePayload <+: encode samplePayload :=
    (List.prefix_append _ _).trans hb
  have hproper : upToAffected samplePayload ≠ encode samplePayload := by
    intro heq
    have hlength := congrArg List.length heq
    revert hlength
    decide +kernel
  refine ⟨h, ⟨hb, hne, hok.2 ⟨.mode, hgroup, rfl, rfl⟩⟩, hcut, hproper, ?_⟩
  exact (decode_of_cut h hcut hproper).2.2 (.inl rfl) rfl

end SealedTx.Codec.Legacy
