import Mathlib.Tactic.MkIffOfInductiveProp
import SealedTx.Payload
import SealedTx.Proofs.Fields

/-!
# Building payloads

A draft builds if it names a sender and its mode admits its parts; the payload then has the
draft's parts, but for an empty group id, which is none (`Draft.build_of_admits`,
`Draft.build_eq_ok_iff`). A payload's own draft builds the payload again (`Payload.build_toDraft`),
so a wire format reads a payload back as soon as it reads its draft back.

What a wire format can write is bounded by the lengths that it can write (`Contents.Sized`).
-/

namespace SealedTx

open Fields (lengthLimit)

/-! ## Drafts -/

theorem PrivacyMode.admits_nothing : standardPrivate.Admits [] .empty := by
  unfold Admits
  decide

/-- A draft with a sender whose mode admits its parts is a payload. -/
theorem Draft.build_of_admits {d : Draft} {s : PublicKey} (hs : d.sender = some s)
    (h : d.mode.Admits d.execHash d.mandatory) :
    d.build = .ok { d.toContents with
      groupId := nonemptyGroupId d.groupId
      sender := s
      admitted := h
      groupId_ne := nonemptyGroupId_ne d.groupId } := by
  unfold Draft.build
  rw [hs]
  dsimp only
  split
  next e he =>
    rw [PrivacyMode.fault?_eq_none_iff.2 h] at he
    exact nomatch he
  next => rfl

/-- The parts of a payload are those of the draft that built it, but for an empty group id. -/
theorem Draft.of_build {d : Draft} {p : Payload} (h : d.build = .ok p) :
    d.sender = some p.sender ∧
      p.toContents = { d.toContents with groupId := nonemptyGroupId d.groupId } := by
  unfold Draft.build at h
  split at h
  · exact nomatch h
  next s hs =>
    split at h
    · exact nomatch h
    · cases h
      exact ⟨hs, rfl⟩

/-- Payloads with the same parts are equal, as their promises are no parts. -/
theorem Payload.ext_of_parts {p q : Payload} (hs : p.sender = q.sender)
    (h : p.toContents = q.toContents) : p = q := by
  cases p
  cases q
  cases hs
  cases h
  rfl

/-- A group id that is not empty stays. -/
theorem nonemptyGroupId_of_ne {id : Option GroupId} (h : id ≠ some ⟨[]⟩) :
    nonemptyGroupId id = id := by
  cases id with
  | none => rfl
  | some g =>
    have hg : g.bytes ≠ [] := fun e => h (by cases g; simp_all)
    simp [nonemptyGroupId, Option.filter, hg]

theorem nonemptyGroupId_eq_some_iff {id : Option GroupId} {g : GroupId} :
    nonemptyGroupId id = some g ↔ id = some g ∧ g.bytes ≠ [] := by
  simp [nonemptyGroupId, Option.filter_eq_some_iff]

/-- An empty group id may be dropped before building. -/
theorem Draft.build_nonemptyGroupId (d : Draft) :
    Draft.build { d with groupId := nonemptyGroupId d.groupId } = d.build := by
  simp only [Draft.build, nonemptyGroupId_of_ne (nonemptyGroupId_ne d.groupId)]

/-- **The draft of a payload builds the payload.** -/
@[simp] theorem Payload.build_toDraft (p : Payload) : p.toDraft.build = .ok p := by
  rw [Draft.build_of_admits (d := p.toDraft) rfl p.admitted]
  simp only [Payload.toDraft, nonemptyGroupId_of_ne p.groupId_ne]

theorem Payload.toDraft_inj {p q : Payload} : p.toDraft = q.toDraft ↔ p = q := by
  constructor
  · intro h
    have hbuild := p.build_toDraft
    rw [h, q.build_toDraft] at hbuild
    exact (Except.ok.inj hbuild).symm
  · exact congrArg Payload.toDraft

/-- A draft that keeps the promises of payloads is one of a payload. -/
theorem Draft.exists_payload {d : Draft} {s : PublicKey} (hs : d.sender = some s)
    (h : d.mode.Admits d.execHash d.mandatory) (hg : d.groupId ≠ some ⟨[]⟩) :
    ∃ p : Payload, p.toDraft = d := by
  refine ⟨{ d.toContents with sender := s, admitted := h, groupId_ne := hg }, ?_⟩
  rw [Payload.toDraft, ← hs]

/-- A draft builds a payload if its mode admits its parts and it is the payload's own draft, but for
an empty group id. -/
theorem Draft.build_eq_ok_iff {d : Draft} {p : Payload} :
    d.build = .ok p ↔ d.mode.Admits d.execHash d.mandatory ∧
      p.toDraft = { d with groupId := nonemptyGroupId d.groupId } := by
  constructor
  · intro h
    obtain ⟨hs, hp⟩ := Draft.of_build h
    have hadmits := p.admitted
    rw [hp] at hadmits
    refine ⟨hadmits, ?_⟩
    rw [Payload.toDraft, hp, hs]
  · rintro ⟨_, hp⟩
    rw [← Draft.build_nonemptyGroupId, ← hp]
    exact p.build_toDraft

theorem PrivacyMode.malformed_of_fault {m : PrivacyMode} {execHash : Bytes}
    {mandatory : SortedSet PublicKey} {e : EnclaveError}
    (h : m.fault? execHash mandatory = some e) : ∃ reason, e = .malformedPayload reason := by
  unfold fault? at h
  repeat' split at h
  all_goals cases h <;> exact ⟨_, rfl⟩

/-- A draft that does not build is malformed. -/
theorem Draft.malformed_of_build {d : Draft} {e : EnclaveError} (h : d.build = .error e) :
    ∃ reason, e = .malformedPayload reason := by
  unfold Draft.build at h
  split at h
  · cases h
    exact ⟨_, rfl⟩
  · split at h
    next e' hfault =>
      cases h
      exact PrivacyMode.malformed_of_fault hfault
    · cases h

/-! ## Lengths -/

/-- Whether all lengths of a payload's parts are ones that can be written. -/
@[mk_iff]
structure Contents.Sized (c : Contents) : Prop where
  cipherText : c.cipherText.length < lengthLimit
  nonce : c.nonce.bytes.length < lengthLimit
  boxes : c.boxes.length < lengthLimit
  box : ∀ b ∈ c.boxes, b.bytes.length < lengthLimit
  recipientNonce : c.recipientNonce.bytes.length < lengthLimit
  recipients : c.recipients.length < lengthLimit
  affected : c.affected.size < lengthLimit
  txHash : ∀ e ∈ c.affected.entries, e.1.bytes.length < lengthLimit
  securityHash : ∀ e ∈ c.affected.entries, e.2.bytes.length < lengthLimit
  execHash : c.execHash.length < lengthLimit
  mandatory : c.mandatory.size < lengthLimit
  groupId : ∀ g ∈ c.groupId, g.bytes.length < lengthLimit

instance (c : Contents) : Decidable c.Sized := decidable_of_iff' _ c.sized_iff

/-! ## Keys, boxes and mandatory recipients as byte strings -/

theorem Key.length_lt {role : KeyRole} (k : Key role) : k.bytes.length < lengthLimit := by
  rw [k.length_eq]
  decide

/-- A byte string is taken as a key exactly if it is one. -/
theorem Key.ofBytes_eq_ok_iff {role : KeyRole} {b : Bytes} {k : Key role} :
    Key.ofBytes b = .ok k ↔ k.bytes = b := by
  unfold Key.ofBytes
  constructor
  · intro h
    by_cases hb : b.length = keySize
    · rw [dif_pos hb] at h
      cases h
      rfl
    · rw [dif_neg hb] at h
      cases h
  · rintro rfl
    exact dif_pos k.length_eq

/-- A key is never too long. -/
theorem Key.length_lt_of_mem {role : KeyRole} {ks : List (Key role)} :
    ∀ b ∈ ks.map Key.bytes, b.length < lengthLimit := by
  intro b hb
  obtain ⟨k, _, rfl⟩ := List.mem_map.1 hb
  exact k.length_lt

@[simp] theorem Blob.map_mk_map_bytes {role : BlobRole} (l : List (Blob role)) :
    (l.map Blob.bytes).map Blob.mk = l := by
  rw [List.map_map]
  exact List.map_id' l

@[simp] theorem Blob.map_bytes_map_mk {role : BlobRole} (l : List Bytes) :
    (l.map Blob.mk : List (Blob role)).map Blob.bytes = l := by
  rw [List.map_map]
  exact List.map_id' l

namespace Contents.Sized

variable {c : Contents}

theorem length_box (h : c.Sized) : ∀ b ∈ c.boxes.map Blob.bytes, b.length < lengthLimit := by
  intro b hb
  obtain ⟨box, hbox, rfl⟩ := List.mem_map.1 hb
  exact h.box box hbox

theorem length_mandatory (h : c.Sized) : c.mandatory.toList.length < lengthLimit := by
  rw [SortedSet.toList, SortedMap.keys, List.length_map]
  exact h.mandatory

end Contents.Sized

end SealedTx
