import SealedTx.Codec.Legacy
import SealedTx.Codec.Named
import SealedTx.Codec.Version

/-!
# Both wire formats

The first byte of a payload tells its format: a map head begins the map format, and the field
format begins with a zero, the highest byte of the length of the sender's key.
-/

namespace SealedTx.Codec

/-- The bytes of a payload in a format. -/
def encode : Codec → Payload → Bytes
  | legacy => Legacy.encode
  | cbor => Named.encode

/-- The payload that a byte string holds in a format. -/
def decode : Codec → Bytes → Except EnclaveError Payload
  | legacy => Legacy.decode
  | cbor => Named.decode

/-- The format of a byte string, by its first byte. -/
def detect : Bytes → Except EnclaveError Codec
  | [] => .error (.malformedPayload "empty payload")
  | b :: _ =>
    if 0xA0 ≤ b ∧ b ≤ 0xBF then .ok cbor
    else if b = 0 then .ok legacy
    else .error (.malformedPayload s!"unrecognised payload header byte 0x{Text.hexByte b}")

/-- The payload that a byte string holds, in whichever format it is. -/
def decodeAny (b : Bytes) : Except EnclaveError Payload := do
  (← detect b).decode b

end SealedTx.Codec
