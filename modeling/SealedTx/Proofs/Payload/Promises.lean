import SealedTx.Proofs.Codec.Detect
import SealedTx.Proofs.Enclave.Affected

/-!
# What all payloads keep to

A draft is put together part by part, in any order and as often as one likes (`Setting`). Only when
it is built are its parts checked against its mode; an empty group id is dropped as soon as it is
set. A payload can be taken apart again, changed and built anew, and a view changes its recipients
and boxes with no check at all.

`Returned` are the drafts that come out of all this as payloads, just as they stand. They are those
that the type of payloads allows (`returned_iff`), so no operation can break a promise that the type
makes, and building such a draft once more gives it back (`Returned.keeps_promises`).
-/

namespace SealedTx

/-! ## Setting parts -/

/-- A part that a draft is given. -/
inductive Setting where
  | sender (k : PublicKey)
  | cipherText (b : Bytes)
  | nonce (n : Nonce)
  | boxes (bs : List RecipientBox)
  | addBox (b : RecipientBox)
  | recipientNonce (n : Nonce)
  | recipients (ks : List PublicKey)
  | addRecipient (k : PublicKey)
  | mode (m : PrivacyMode)
  | affected (m : SortedMap TxHash SecurityHash)
  | addAffected (tx : TxHash) (hash : SecurityHash)
  | execHash (b : Bytes)
  | mandatory (ks : List PublicKey)
  | groupId (id : Option GroupId)

namespace Draft

/-- The draft with one part set. An empty group id is none from the start. -/
def set (d : Draft) : Setting → Draft
  | .sender k => { d with sender := some k }
  | .cipherText b => { d with cipherText := b }
  | .nonce n => { d with nonce := n }
  | .boxes bs => { d with boxes := bs }
  | .addBox b => { d with boxes := d.boxes ++ [b] }
  | .recipientNonce n => { d with recipientNonce := n }
  | .recipients ks => { d with recipients := ks }
  | .addRecipient k => { d with recipients := d.recipients ++ [k] }
  | .mode m => { d with mode := m }
  | .affected m => { d with affected := m }
  | .addAffected tx hash => { d with affected := d.affected.insert tx hash }
  | .execHash b => { d with execHash := b }
  | .mandatory ks => { d with mandatory := .ofList ks }
  | .groupId id => { d with groupId := nonemptyGroupId id }

/-- The draft with parts set one after the other. -/
def setAll (d : Draft) (ss : List Setting) : Draft := ss.foldl set d

theorem groupId_set_ne {d : Draft} (h : d.groupId ≠ some ⟨[]⟩) (s : Setting) :
    (d.set s).groupId ≠ some ⟨[]⟩ := by
  cases s with
  | groupId id => exact nonemptyGroupId_ne id
  | _ => exact h

/-- A draft never has an empty group id while its parts are set. -/
theorem groupId_setAll_ne (ss : List Setting) : ∀ {d : Draft}, d.groupId ≠ some ⟨[]⟩ →
    (d.setAll ss).groupId ≠ some ⟨[]⟩ := by
  induction ss with
  | nil => exact id
  | cons s ss ih => exact fun h => ih (groupId_set_ne h s)

/-- Without an empty group id, a draft builds the payload that it is. -/
theorem toDraft_of_build {d : Draft} {p : Payload} (hg : d.groupId ≠ some ⟨[]⟩)
    (h : d.build = .ok p) : p.toDraft = d := by
  have hp := (build_eq_ok_iff.1 h).2
  rw [nonemptyGroupId_of_ne hg] at hp
  exact hp

end Draft

/-- The settings that make a payload's draft. -/
def Payload.settings (p : Payload) : List Setting :=
  [.sender p.sender, .cipherText p.cipherText, .nonce p.nonce, .boxes p.boxes,
    .recipientNonce p.recipientNonce, .recipients p.recipients, .mode p.mode,
    .affected p.affected, .execHash p.execHash, .mandatory p.mandatory.toList,
    .groupId p.groupId]

theorem Payload.setAll_settings (p : Payload) : Draft.setAll {} p.settings = p.toDraft := by
  simp only [settings, Draft.setAll, List.foldl_cons, List.foldl_nil, Draft.set,
    SortedSet.ofList_toList, nonemptyGroupId_of_ne p.groupId_ne, toDraft]

/-! ## What is returned -/

/-- The drafts that operations return as payloads. -/
inductive Returned : Draft → Prop
  /-- Parts are set on an empty draft, which then builds. -/
  | built {p} (ss : List Setting) (h : (Draft.setAll {} ss).build = .ok p) :
    Returned (Draft.setAll {} ss)
  /-- Parts of a payload are set anew, and the draft builds again. -/
  | edited {d p} (hd : Returned d) (ss : List Setting) (h : (d.setAll ss).build = .ok p) :
    Returned (d.setAll ss)
  /-- A payload gets other recipients and boxes, unchecked, as in a view for one recipient or when
  it is given its only one. -/
  | viewed {d} (hd : Returned d) (rs : List PublicKey) (bs : List RecipientBox) :
    Returned { d with recipients := rs, boxes := bs }
  /-- Any bytes are read in one format. -/
  | decoded {b p} (c : Codec) (h : c.decode b = .ok p) : Returned p.toDraft
  /-- Any bytes are read in the format that they are in. -/
  | detected {b p} (h : Codec.decodeAny b = .ok p) : Returned p.toDraft
  /-- An enclave makes a payload of a message, or of one that was staged. -/
  | made {x : Enclave} {md p} (h : x.Makes md p) : Returned p.toDraft

theorem Returned.forRecipient {p v : Payload} {r : PublicKey} (hp : Returned p.toDraft)
    (h : p.forRecipient r = .ok v) : Returned v.toDraft := by
  obtain ⟨i, box, _, _, rfl⟩ := Payload.forRecipient_eq_ok_iff.1 h
  exact hp.viewed (p.viewKeys r) [box]

theorem Returned.withRecipient {p : Payload} (hp : Returned p.toDraft) (r : PublicKey) :
    Returned (p.withRecipient r).toDraft := by
  unfold Payload.withRecipient
  split
  · exact hp.viewed [r] p.boxes
  · exact hp

/-- **What is returned** is what the type of payloads allows. -/
theorem returned_iff {d : Draft} : Returned d ↔ ∃ p : Payload, p.toDraft = d := by
  constructor
  · intro h
    induction h with
    | @built p ss h =>
      exact ⟨p, Draft.toDraft_of_build (Draft.groupId_setAll_ne ss nofun) h⟩
    | @edited d p _ ss h ih =>
      obtain ⟨q, rfl⟩ := ih
      exact ⟨p, Draft.toDraft_of_build (Draft.groupId_setAll_ne ss q.groupId_ne) h⟩
    | viewed _ rs bs ih =>
      obtain ⟨q, rfl⟩ := ih
      exact ⟨q.withView rs bs, rfl⟩
    | decoded _ _ | detected _ | made _ => exact ⟨_, rfl⟩
  · rintro ⟨p, rfl⟩
    have hbuild : (Draft.setAll {} p.settings).build = .ok p := by
      rw [p.setAll_settings, p.build_toDraft]
    rw [← p.setAll_settings]
    exact .built p.settings hbuild

/-- **Every payload that is returned keeps the promises of its mode** and has no empty group id, so
its draft builds just that payload. -/
theorem Returned.keeps_promises {d : Draft} (h : Returned d) :
    (d.execHash ≠ [] ↔ d.mode = .privateStateValidation) ∧
    (d.mandatory ≠ .empty ↔ d.mode = .mandatoryRecipients) ∧
    d.groupId ≠ some ⟨[]⟩ ∧ ∃ p, d.build = .ok p ∧ p.toDraft = d := by
  obtain ⟨p, rfl⟩ := returned_iff.1 h
  exact ⟨p.admitted.1, p.admitted.2, p.groupId_ne, p, p.build_toDraft, rfl⟩

/-- A payload that validates state, whose group id was taken back, is changed into one that has
mandatory recipients. -/
theorem keeps_promises_of_edits :
    let d := Draft.setAll {} [.groupId (some ⟨[7]⟩), .execHash [1], .mode .privateStateValidation,
      .sender ⟨List.replicate keySize 1, rfl⟩, .groupId (some ⟨[]⟩)]
    let d' := d.setAll [.mandatory [⟨List.replicate keySize 2, rfl⟩], .addBox ⟨[5]⟩,
      .mode .mandatoryRecipients, .execHash []]
    Returned d' ∧ d'.execHash = [] ∧ d'.mandatory ≠ .empty ∧ d'.groupId ≠ some ⟨[]⟩ ∧
      ∃ p, d'.build = .ok p ∧ p.toDraft = d' := by
  intro d d'
  have hd : Returned d :=
    .built _ (Draft.build_of_admits (d := d) rfl (by unfold PrivacyMode.Admits; decide))
  have hd' : Returned d' :=
    hd.edited _ (Draft.build_of_admits (d := d') rfl (by unfold PrivacyMode.Admits; decide))
  obtain ⟨_, hmandatory, hgroup, hbuild⟩ := hd'.keeps_promises
  exact ⟨hd', rfl, hmandatory.2 rfl, hgroup, hbuild⟩

end SealedTx
