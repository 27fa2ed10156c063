import SealedTx.Payload

/-!
# What a sender asks for

The privacy mode of a transaction and what the mode asks for, with the affected transactions as
whole payloads. Metadata keeps the promise of its mode, as a payload does; unlike in a payload,
an empty group id stays as it is.
-/

namespace SealedTx

/-- The privacy settings of one encryption. -/
structure Metadata where
  mode : PrivacyMode
  affected : SortedMap TxHash Payload
  execHash : Bytes
  mandatory : SortedSet PublicKey
  groupId : Option GroupId
  admitted : mode.Admits execHash mandatory

/-- Metadata with the given parts, or the first rule of the mode that they break. -/
def Metadata.build (mode : PrivacyMode) (affected : SortedMap TxHash Payload) (execHash : Bytes)
    (mandatory : SortedSet PublicKey) (groupId : Option GroupId) :
    Except EnclaveError Metadata :=
  match h : mode.fault? execHash mandatory with
  | some e => .error e
  | none =>
    .ok { mode, affected, execHash, mandatory, groupId
          admitted := PrivacyMode.fault?_eq_none_iff.1 h }

end SealedTx
