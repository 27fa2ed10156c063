import SealedTx.Payload

/-!
# What one recipient gets to see

A payload is sent to each recipient with no box but its own. The other recipients' keys go too,
unless all recipients have to know each other: under private state validation they are kept,
behind the key of the one that is sent to.
-/

namespace SealedTx.Payload

/-- The payload as it is sent to one recipient. -/
def forRecipient (p : Payload) (r : PublicKey) : Except EnclaveError Payload :=
  match p.recipientIndex? r with
  | none => .error (.invalidRecipient r)
  | some i =>
    match p.boxes[i]? with
    | none => .error (.malformedPayload s!"no recipient box at index {i} for {r.toBase64}")
    | some box =>
      let keys :=
        if p.mode = .privateStateValidation then r :: p.recipients.filter (· ≠ r) else [r]
      .ok (p.withView keys [box])

/-- The payload with a recipient named, if it names none. -/
def withRecipient (p : Payload) (r : PublicKey) : Payload :=
  if p.recipients = [] then p.withView [r] p.boxes else p

end SealedTx.Payload
