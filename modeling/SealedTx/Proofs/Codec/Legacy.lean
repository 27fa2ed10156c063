import SealedTx.Codec.Detect
import SealedTx.Proofs.Codec.Grammar

/-!
# The field format round trip

What is written for a payload is read back as that payload, since it is a byte string of the grammar
for just that payload (`reads_encode`).

The writer puts down an execution hash if there is one, the grammar asks for one if the mode
validates state; that is the same in a payload, whose mode admits a hash exactly if it validates
state. So it is with mandatory recipients (`middle_sectionsOf`).
-/

namespace SealedTx.Codec.Legacy

open Fields

/-! ## The parts of a payload -/

/-- The parts that every payload has. -/
def headOf (p : Payload) : Head where
  sender := p.sender
  cipherText := p.cipherText
  nonce := p.nonce
  boxes := p.boxes
  recipientNonce := p.recipientNonce

/-- The parts behind the recipients, with nothing behind the group id. -/
def sectionsOf (p : Payload) : Sections where
  flag := [p.mode.flag]
  affected := p.affected.entries
  execHash := p.execHash
  mandatory := p.mandatory.toList
  tail := p.groupId.map fun g => (g, [])

variable {p : Payload}

theorem fits_headOf (h : p.Sized) : (headOf p).Fits :=
  ⟨h.cipherText, h.nonce, h.boxes, h.box, h.recipientNonce⟩

theorem mode_sectionsOf (p : Payload) : (sectionsOf p).mode = p.mode :=
  PrivacyMode.ofFlag_flag p.mode

theorem mandatory_sectionsOf_iff (p : Payload) :
    (sectionsOf p).mandatory ≠ [] ↔ (sectionsOf p).mode = .mandatoryRecipients := by
  rw [mode_sectionsOf, ← p.admitted.2, Ne, ← SortedSet.ofList_eq_empty_iff]
  exact not_congr (by rw [sectionsOf, SortedSet.ofList_toList])

theorem length_flag_lt (flag : UInt8) : [flag].length < lengthLimit := by
  rw [List.length_singleton]
  decide

theorem fits_sectionsOf (h : p.Sized) : (sectionsOf p).Fits := by
  constructor
  case flag => exact length_flag_lt _
  case affected => exact h.affected
  case entry => exact fun e he => ⟨h.txHash e he, h.securityHash e he⟩
  case execHash => exact h.execHash
  case execHash_iff =>
    rw [mode_sectionsOf]
    exact p.admitted.1
  case mandatory => exact h.length_mandatory
  case mandatory_iff => exact mandatory_sectionsOf_iff p
  case groupId =>
    intro t ht
    obtain ⟨g, hg, rfl⟩ := Option.map_eq_some_iff.1 ht
    exact h.groupId g hg

/-- What the writer puts down by the parts is what the grammar asks for by the mode. -/
theorem middle_sectionsOf (p : Payload) : (sectionsOf p).middle =
    (if p.execHash = [] then [] else field p.execHash) ++
      (if p.mode = .mandatoryRecipients then array (p.mandatory.toList.map Key.bytes) else []) := by
  rw [middle_eq, mode_sectionsOf]
  by_cases he : p.execHash = []
  · have hm : p.mode ≠ .privateStateValidation := fun hm => p.admitted.1.2 hm he
    rw [if_pos he, if_neg hm]
    rfl
  · rw [if_neg he, if_pos (p.admitted.1.1 he)]
    rfl

theorem tailBytes_sectionsOf (p : Payload) :
    tailBytes (sectionsOf p).tail = groupIdField p.groupId := by
  unfold sectionsOf
  cases p.groupId with
  | none => rfl
  | some g => exact List.append_nil _

theorem draft_sectionsOf (p : Payload) :
    (sectionsOf p).draft ((headOf p).draft p.recipients) = p.toDraft := by
  have hgroup : ((sectionsOf p).tail.map (·.1)) = p.groupId := by
    unfold sectionsOf
    cases p.groupId <;> rfl
  rw [Sections.draft, hgroup, mode_sectionsOf, nonemptyGroupId_of_ne p.groupId_ne]
  simp only [sectionsOf, SortedMap.ofList_entries, SortedSet.ofList_toList]
  rfl

/-! ## The whole payload -/

theorem encode_eq (p : Payload) : encode p =
    (headOf p).bytes ++ array (p.recipients.map Key.bytes) ++ (sectionsOf p).bytes := by
  rw [Sections.bytes, middle_sectionsOf, tailBytes_sectionsOf]
  simp only [encode, affectedFields, Head.bytes, List.append_assoc]
  rfl

/-- **The bytes of a payload are read as its draft.** -/
theorem reads_encode (h : p.Sized) : Reads (encode p) p.toDraft := by
  rw [encode_eq, ← draft_sectionsOf]
  exact .sections (fits_headOf h) h.recipients (fits_sectionsOf h)

/-- **A payload is read back.** -/
theorem decode_encode (h : p.Sized) : decode (encode p) = .ok p :=
  decode_eq_ok_iff.2 (reads_encode h)

/-- The bytes of a payload begin with the highest byte of the length of its sender's key. -/
theorem encode_eq_cons (p : Payload) : ∃ b, encode p = 0 :: b := by
  obtain ⟨b, hb⟩ := (headOf p).bytes_eq_cons
  rw [encode_eq, hb]
  exact ⟨_, rfl⟩

end SealedTx.Codec.Legacy
