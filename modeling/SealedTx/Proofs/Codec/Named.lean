import SealedTx.Codec.Detect
import SealedTx.Proofs.Cbor
import SealedTx.Proofs.Outcome
import SealedTx.Proofs.Payload
import SealedTx.Proofs.Sorted
import SealedTx.Proofs.Text.Base64

/-!
# The map format round trip

What is written for a payload is read back as that payload, whatever bytes follow.

The map of a payload has two levels of items under it, numbers that are flags, and lengths that
are those of the payload, so it fits and is read back as an item (`fits_toValue`). Each name
stands in it once, so a name finds what was written under it (`ofEntries_entriesOf`). What is not
written as it is comes back all the same: a hash goes through its Base64 text, keys have the length
of keys, and the empty bytes for a missing group id build none.
-/

namespace SealedTx.Codec.Named

open Cbor Outcome
open Fields (lengthLimit)

/-! ## What is written fits -/

/-- A length that can be written is one that a head can tell. -/
theorem lt_argumentLimit {n : Nat} (h : n < lengthLimit) : n < argumentLimit :=
  Nat.lt_trans h (by decide)

theorem fits_bytes {b : Bytes} (h : b.length < lengthLimit) (depth : Nat) :
    (Value.bytes b).Fits depth :=
  lt_argumentLimit h

theorem fits_byteArray {items : List Bytes} (hn : items.length < lengthLimit)
    (h : ∀ b ∈ items, b.length < lengthLimit) (depth : Nat) :
    (byteArray items).Fits (depth + 1) := by
  refine ⟨by simpa using lt_argumentLimit hn, fitsAll_iff.2 fun v hv => ?_⟩
  obtain ⟨b, hb, rfl⟩ := List.mem_map.1 hv
  exact fits_bytes (h b hb) depth

theorem fits_keyArray {ks : List PublicKey} (h : ks.length < lengthLimit) (depth : Nat) :
    (byteArray (ks.map Key.bytes)).Fits (depth + 1) :=
  fits_byteArray (by rwa [List.length_map]) Key.length_lt_of_mem depth

/-- The Base64 text of a byte value is longer than the value, but not beyond what a head can
tell. -/
theorem fits_base64 {role : BlobRole} {b : Blob role} (h : b.bytes.length < lengthLimit)
    (depth : Nat) : (Value.text b.toBase64).Fits depth := by
  rw [Value.Fits, Blob.toBase64, Text.Base64.ofText_encode, Text.Base64.length_encodeBytes]
  unfold lengthLimit at h
  unfold argumentLimit
  omega

theorem fits_affectedValue {m : SortedMap TxHash SecurityHash} (hn : m.size < lengthLimit)
    (ht : ∀ e ∈ m.entries, e.1.bytes.length < lengthLimit)
    (hs : ∀ e ∈ m.entries, e.2.bytes.length < lengthLimit) (depth : Nat) :
    (affectedValue m).Fits (depth + 1) := by
  have hlength : (m.entries.map fun e => (Value.text e.1.toBase64, Value.bytes e.2.bytes)).length <
      argumentLimit := by
    rw [List.length_map]
    exact lt_argumentLimit hn
  refine ⟨hlength, fitsEach_iff.2 fun x hx => ?_⟩
  obtain ⟨e, he, rfl⟩ := List.mem_map.1 hx
  exact ⟨fits_base64 (ht e he) depth, fits_bytes (hs e he) depth⟩

theorem fits_flag (m : PrivacyMode) (depth : Nat) : (Value.integer m.flag.toNat).Fits depth := by
  cases m <;> exact ⟨by decide, by decide⟩

theorem fits_groupId {id : Option GroupId} (h : ∀ g ∈ id, g.bytes.length < lengthLimit)
    (depth : Nat) : (Value.bytes (groupIdBytes id)).Fits depth := by
  cases id with
  | none => exact fits_bytes (by decide) depth
  | some g => exact fits_bytes (h g rfl) depth

/-- The map of a payload has only two levels under it. -/
theorem fits_toValue {p : Payload} (h : p.Sized) (depth : Nat) :
    (toValue p).Fits (depth + 2) := by
  have hname : ∀ e ∈ entriesOf p, e.1.Fits (depth + 1) := by
    simp only [entriesOf, List.forall_mem_cons]
    refine ⟨?_, ?_, ?_, ?_, ?_, ?_, ?_, ?_, ?_, ?_, ?_, List.forall_mem_nil _⟩
    all_goals
      rw [Value.Fits]
      decide
  have hvalue : ∀ e ∈ entriesOf p, e.2.Fits (depth + 1) := by
    simp only [entriesOf, List.forall_mem_cons]
    exact ⟨fits_bytes p.sender.length_lt _, fits_bytes h.cipherText _, fits_bytes h.nonce _,
      fits_bytes h.recipientNonce _, fits_byteArray (by simpa using h.boxes) h.length_box _,
      fits_keyArray h.recipients _, fits_flag p.mode _,
      fits_affectedValue h.affected h.txHash h.securityHash _, fits_bytes h.execHash _,
      fits_keyArray h.length_mandatory _, fits_groupId h.groupId _, List.forall_mem_nil _⟩
  have hlength : (entriesOf p).length < argumentLimit := by
    rw [show (entriesOf p).length = 11 from rfl]
    decide
  exact ⟨hlength, fitsEach_iff.2 fun e he => ⟨hname e he, hvalue e he⟩⟩

/-! ## What is written is expected -/

theorem expectByteArray_byteArray (name : String) (items : List Bytes) :
    expectByteArray name (byteArray items) = .ok items :=
  mapM_map_eq_ok (f := expectBytes name) (g := .bytes) (fun _ => rfl) items

theorem expectKey_eq_ok_iff {what : String} {b : Bytes} {k : PublicKey} :
    expectKey what b = .ok k ↔ k.bytes = b := by
  rw [expectKey, mapError_eq_ok_iff, Key.ofBytes_eq_ok_iff]

theorem expectKey_bytes (what : String) (k : PublicKey) : expectKey what k.bytes = .ok k :=
  expectKey_eq_ok_iff.2 rfl

theorem expectKeys_byteArray (name : String) (ks : List PublicKey) :
    expectKeys name (byteArray (ks.map Key.bytes)) = .ok ks := by
  rw [expectKeys, expectByteArray_byteArray]
  exact mapM_map_eq_ok (expectKey_bytes _) ks

/-- The hash of an affected transaction comes back from its Base64 text. -/
theorem expectAffectedEntry_text (name : String) (e : TxHash × SecurityHash) :
    expectAffectedEntry name (.text e.1.toBase64, .bytes e.2.bytes) = .ok e := by
  rw [expectAffectedEntry, Blob.ofBase64_toBase64]
  rfl

theorem expectAffected_affectedValue (name : String) (m : SortedMap TxHash SecurityHash) :
    expectAffected name (affectedValue m) = .ok m := by
  rw [affectedValue, expectAffected, mapM_map_eq_ok (expectAffectedEntry_text name)]
  exact congrArg Except.ok m.ofList_entries

theorem expectMode_flag (name : String) (m : PrivacyMode) :
    expectMode name (.integer m.flag.toNat) = .ok m := by
  rw [expectMode, PrivacyMode.ofInt_flag]

/-- Empty bytes stand for no group id. -/
theorem nonemptyGroupId_groupIdBytes {id : Option GroupId} (h : id ≠ some ⟨[]⟩) :
    nonemptyGroupId (some ⟨groupIdBytes id⟩) = id := by
  cases id with
  | none => rfl
  | some g => exact nonemptyGroupId_of_ne h

/-! ## The whole payload -/

/-- What the entries of a payload's map make of a draft: a group id is always there. -/
def entriesDraft (p : Payload) : Draft :=
  { p.toDraft with groupId := some ⟨groupIdBytes p.groupId⟩ }

/-- **The names find what was written under them.** -/
theorem ofEntries_entriesOf (p : Payload) : ofEntries (entriesOf p) = .ok (entriesDraft p) := by
  -- the last entry of a name is the only one, so each look-up just walks to it
  have hsender : requiredBytes (entriesOf p) senderName = .ok p.sender.bytes := rfl
  have hcipherText : requiredBytes (entriesOf p) cipherTextName = .ok p.cipherText := rfl
  have hnonce : requiredBytes (entriesOf p) nonceName = .ok p.nonce.bytes := rfl
  have hrecipientNonce :
      requiredBytes (entriesOf p) recipientNonceName = .ok p.recipientNonce.bytes := rfl
  have hboxes : optional (entriesOf p) boxesName [] expectByteArray =
      .ok (p.boxes.map Blob.bytes) :=
    expectByteArray_byteArray boxesName _
  have hrecipients : optional (entriesOf p) recipientsName [] expectKeys = .ok p.recipients :=
    expectKeys_byteArray recipientsName _
  have hmode : optional (entriesOf p) flagName .standardPrivate expectMode = .ok p.mode :=
    expectMode_flag flagName _
  have haffected : optional (entriesOf p) affectedName .empty expectAffected = .ok p.affected :=
    expectAffected_affectedValue affectedName _
  have hexecHash : optional (entriesOf p) execHashName [] expectBytes = .ok p.execHash := rfl
  have hmandatory : optional (entriesOf p) mandatoryName [] expectKeys = .ok p.mandatory.toList :=
    expectKeys_byteArray mandatoryName _
  have hgroupId : optional (entriesOf p) groupIdName [] expectBytes =
      .ok (groupIdBytes p.groupId) := rfl
  simp only [ofEntries, hsender, hcipherText, hnonce, hrecipientNonce, hboxes, hrecipients, hmode,
    haffected, hexecHash, hmandatory, hgroupId, bind, Except.bind, expectKey_bytes,
    Blob.map_mk_map_bytes, SortedSet.ofList_toList]
  rfl

theorem build_entriesDraft (p : Payload) : (entriesDraft p).build = .ok p := by
  rw [Draft.build_of_admits (d := entriesDraft p) rfl p.admitted]
  simp only [entriesDraft, Payload.toDraft, nonemptyGroupId_groupIdBytes p.groupId_ne]

/-- **A payload is read back**, whatever bytes follow it. -/
theorem decode_encode {p : Payload} (h : p.Sized) (rest : Bytes) :
    decode (encode p ++ rest) = .ok p := by
  have hfits : (toValue p).Fits depthLimit := fits_toValue h 254
  rw [decode, encode, parse_encode hfits rest]
  dsimp only
  rw [toValue, ofValue, ofEntries_entriesOf]
  exact build_entriesDraft p

/-- The map of a payload begins with the head of a map of eleven entries. -/
theorem encode_eq_cons (p : Payload) : ∃ b, encode p = 0xAB :: b := ⟨_, rfl⟩

end SealedTx.Codec.Named
