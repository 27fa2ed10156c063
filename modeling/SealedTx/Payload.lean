import SealedTx.PrivacyMode

/-!
# Payloads

A payload is an encrypted transaction as nodes exchange it: the sealed message, the master key
sealed once for every recipient, and what its privacy mode asks for. Box `i` belongs to recipient
`i`.

A payload keeps two promises, which are part of its type: its mode admits its execution hash and
its mandatory recipients, and a group id that is there is not empty. A `Draft` promises nothing;
`Draft.build` turns it into a payload or names the rule it breaks.
-/

namespace SealedTx

/-- All parts of a payload but its sender. -/
structure Contents where
  /-- The message, sealed under the master key. -/
  cipherText : Bytes := []
  /-- The nonce of the sealed message. -/
  nonce : Nonce := ⟨[]⟩
  /-- The master key, sealed for each recipient. -/
  boxes : List RecipientBox := []
  /-- The nonce of all boxes. -/
  recipientNonce : Nonce := ⟨[]⟩
  /-- The recipients, in the order of their boxes. -/
  recipients : List PublicKey := []
  mode : PrivacyMode := .standardPrivate
  /-- The transactions affected, each with the hash that binds this one to it. -/
  affected : SortedMap TxHash SecurityHash := .empty
  /-- The hash of the execution that all recipients validate. -/
  execHash : Bytes := []
  /-- The recipients that have to be included. -/
  mandatory : SortedSet PublicKey := .empty
  /-- The privacy group the transaction belongs to. -/
  groupId : Option GroupId := none
deriving DecidableEq

/-- A payload in the making. -/
structure Draft extends Contents where
  sender : Option PublicKey := none
deriving DecidableEq

/-- An encrypted transaction. -/
structure Payload extends Contents where
  sender : PublicKey
  admitted : mode.Admits execHash mandatory
  groupId_ne : groupId ≠ some ⟨[]⟩
deriving DecidableEq

/-- An empty group id is no group id. -/
def nonemptyGroupId (id : Option GroupId) : Option GroupId := id.filter fun g => !g.bytes.isEmpty

theorem nonemptyGroupId_ne (id : Option GroupId) : nonemptyGroupId id ≠ some ⟨[]⟩ := by
  intro h
  unfold nonemptyGroupId at h
  have := (Option.filter_eq_some_iff.1 h).2
  simp at this

/-- A draft that is a payload, or the first rule it breaks. -/
def Draft.build (d : Draft) : Except EnclaveError Payload :=
  match d.sender with
  | none => .error (.malformedPayload "sender key is required")
  | some sender =>
    match h : d.mode.fault? d.execHash d.mandatory with
    | some e => .error e
    | none =>
      .ok { d.toContents with
        groupId := nonemptyGroupId d.groupId
        sender
        admitted := PrivacyMode.fault?_eq_none_iff.1 h
        groupId_ne := nonemptyGroupId_ne d.groupId }

namespace Payload

/-- A draft with a payload's parts. -/
def toDraft (p : Payload) : Draft := { p.toContents with sender := some p.sender }

/-- The first place of a key among the recipients. -/
def recipientIndex? (p : Payload) (k : PublicKey) : Option Nat := p.recipients.idxOf? k

/-- The payload with other recipients and boxes, neither of which its promises speak of. -/
def withView (p : Payload) (recipients : List PublicKey) (boxes : List RecipientBox) : Payload :=
  { p with recipients, boxes }

end Payload

/-- A message that is sealed but not yet addressed: its master key is sealed by the sender for
itself, under the nonce of the message. -/
structure RawTransaction where
  cipherText : Bytes
  sealedKey : Bytes
  nonce : Nonce
  sender : PublicKey
deriving DecidableEq

end SealedTx
