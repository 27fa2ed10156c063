import SealedTx.Proofs.Codec.Legacy
import SealedTx.Proofs.Codec.Named

/-!
# Round trips in both formats

A payload is told by its first byte and read back, in whichever format it was written. The two
formats differ in what may follow a payload: the map ends by itself, so bytes behind it do not
matter, while in the field format they would be read as a group id.

A payload's type says that a draft builds it (`Payload.build_toDraft`), so all payloads that can
be built are meant, with all their parts: two payloads are equal if they are so in every part.
-/

namespace SealedTx.Codec

/-- The first byte tells the format that a payload was written in. -/
theorem detect_encode (c : Codec) (p : Payload) : detect (c.encode p) = .ok c := by
  cases c with
  | legacy =>
    obtain ⟨b, hb⟩ := Legacy.encode_eq_cons p
    rw [encode, hb]
    rfl
  | cbor =>
    obtain ⟨b, hb⟩ := Named.encode_eq_cons p
    rw [encode, hb]
    rfl

/-- A payload is read back in the format that it was written in. -/
theorem decode_encode (c : Codec) {p : Payload} (h : p.Sized) : c.decode (c.encode p) = .ok p := by
  cases c with
  | legacy => exact Legacy.decode_encode h
  | cbor =>
    have hr := Named.decode_encode h []
    rwa [List.append_nil] at hr

/-- **A payload is read back** without being told its format. -/
theorem decodeAny_encode (c : Codec) {p : Payload} (h : p.Sized) :
    decodeAny (c.encode p) = .ok p := by
  rw [decodeAny, detect_encode]
  exact decode_encode c h

/-! ## Round trips -/

/-- A payload of two recipients that validate its state, with two affected transactions and a
group. -/
def samplePayload : Payload where
  sender := ⟨List.replicate keySize 5, rfl⟩
  cipherText := [10, 20, 30]
  nonce := ⟨[40]⟩
  boxes := [⟨[50, 60]⟩, ⟨[]⟩]
  recipientNonce := ⟨[70]⟩
  recipients := [⟨List.replicate keySize 6, rfl⟩, ⟨List.replicate keySize 7, rfl⟩]
  mode := .privateStateValidation
  affected := .ofList [(⟨[80]⟩, ⟨[90]⟩), (⟨[]⟩, ⟨[100]⟩)]
  execHash := [110]
  groupId := some ⟨[120]⟩
  admitted := by
    unfold PrivacyMode.Admits
    decide
  groupId_ne := by decide

/-- **The field format round trip**: the bytes of a payload are told to be in the field format, and
are read back as the payload by the format's own reader and by the one for both formats. -/
theorem legacy_roundTrip {p : Payload} (h : p.Sized) :
    detect (Legacy.encode p) = .ok legacy ∧ Legacy.decode (Legacy.encode p) = .ok p ∧
      decodeAny (Legacy.encode p) = .ok p :=
  ⟨detect_encode legacy p, Legacy.decode_encode h, decodeAny_encode legacy h⟩

theorem legacy_roundTrip_sample :
    samplePayload.Sized ∧ detect (Legacy.encode samplePayload) = .ok legacy ∧
      Legacy.decode (Legacy.encode samplePayload) = .ok samplePayload ∧
      decodeAny (Legacy.encode samplePayload) = .ok samplePayload := by
  have h : samplePayload.Sized := by decide
  exact ⟨h, legacy_roundTrip h⟩

/-- **The map format round trip**: the bytes of a payload and whatever follows them are told to be
in the map format, and are read back as the payload by the format's own reader and by the one for
both formats. -/
theorem cbor_roundTrip {p : Payload} (h : p.Sized) (rest : Bytes) :
    detect (Named.encode p ++ rest) = .ok cbor ∧
      Named.decode (Named.encode p ++ rest) = .ok p ∧
      decodeAny (Named.encode p ++ rest) = .ok p := by
  have hdetect : detect (Named.encode p ++ rest) = .ok cbor := by
    obtain ⟨b, hb⟩ := Named.encode_eq_cons p
    rw [hb]
    rfl
  have hdecode : Named.decode (Named.encode p ++ rest) = .ok p := Named.decode_encode h rest
  refine ⟨hdetect, hdecode, ?_⟩
  rw [decodeAny, hdetect]
  exact hdecode

theorem cbor_roundTrip_sample :
    samplePayload.Sized ∧ detect (Named.encode samplePayload ++ [0]) = .ok cbor ∧
      Named.decode (Named.encode samplePayload ++ [0]) = .ok samplePayload ∧
      decodeAny (Named.encode samplePayload ++ [0]) = .ok samplePayload := by
  have h : samplePayload.Sized := by decide
  exact ⟨h, cbor_roundTrip h [0]⟩

end SealedTx.Codec
