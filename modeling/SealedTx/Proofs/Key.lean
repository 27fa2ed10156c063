import SealedTx.Proofs.Payload
import SealedTx.Proofs.Text.Fault

/-!
# Keys in texts

A text is that of a key if it is the key's Base64 text, blanks at its ends aside. Any other text has
one fault, whatever the role of the key that is looked for: it is not Base64, or it stands for too
few or too many bytes. The wording of the fault tells it from all others.
-/

namespace SealedTx

open Outcome

variable {role : KeyRole} {text : String} {b : Bytes} {k : Key role} {e e' : ValueError}

theorem Key.ofBytes_eq_error_iff :
    (Key.ofBytes b : Except ValueError (Key role)) = .error e ↔
      b.length ≠ keySize ∧ e = .invalidLength keySize b.length := by
  by_cases hb : b.length = keySize
  · simp [Key.ofBytes, hb]
  · simp [Key.ofBytes, hb, eq_comm]

/-- Whether a text is that of a key, blanks at its ends aside. -/
def Key.WrittenAs (k : Key role) (text : String) : Prop := Text.trim text = k.toBase64

/-- The fault of a text that is not that of a key. -/
inductive Key.Fault (text : String) : ValueError → Prop where
  | decoding {e : Text.Base64.Error} (h : Text.Base64.Fault (Bytes.ofText (Text.trim text)) e) :
      Fault text (.ofBase64 e)
  | length {b : Bytes} (h : Text.trim text = Text.Base64.encode b) (hb : b.length ≠ keySize) :
      Fault text (.invalidLength keySize b.length)

theorem Key.ofBase64_eq_ok_iff : Key.ofBase64 text = .ok k ↔ k.WrittenAs text := by
  rw [Key.ofBase64, bind_eq_ok_iff, decodeBase64, Key.WrittenAs, Key.toBase64]
  simp only [mapError_eq_ok_iff, Text.Base64.decode_eq_ok_iff, Key.ofBytes_eq_ok_iff]
  constructor
  · rintro ⟨b, hb, rfl⟩
    exact hb
  · intro h
    exact ⟨k.bytes, h, rfl⟩

theorem Key.ofBase64_eq_error_iff :
    (Key.ofBase64 text : Except ValueError (Key role)) = .error e ↔ Key.Fault text e := by
  rw [Key.ofBase64, bind_eq_error_iff, decodeBase64]
  simp only [mapError_eq_error_iff, mapError_eq_ok_iff, Text.Base64.decode_eq_error_iff,
    Text.Base64.decode_eq_ok_iff, Key.ofBytes_eq_error_iff]
  constructor
  · rintro (⟨_, h, rfl⟩ | ⟨_, h, hb, rfl⟩)
    · exact .decoding h
    · exact .length h hb
  · intro h
    cases h with
    | decoding h => exact .inl ⟨_, h, rfl⟩
    | length h hb => exact .inr ⟨_, h, hb, rfl⟩

theorem Key.writtenAs_toBase64 (k : Key role) : k.WrittenAs k.toBase64 :=
  Text.Base64.trim_encode k.bytes

/-- A text is not both that of a key, of whatever role, and at fault. -/
theorem Key.Fault.not_writtenAs (h : Key.Fault text e) : ¬k.WrittenAs text := by
  rw [← Key.ofBase64_eq_ok_iff, Key.ofBase64_eq_error_iff.2 h]
  simp

theorem Key.Fault.eq (h : Key.Fault text e) (h' : Key.Fault text e') : e = e' := by
  have hread : (Key.ofBase64 text : Except ValueError PublicKey) = .error e :=
    Key.ofBase64_eq_error_iff.2 h
  rw [Key.ofBase64_eq_error_iff.2 h'] at hread
  exact (Except.error.inj hread).symm

/-- A text that is not that of a key, of whatever role, has a fault. -/
theorem Key.exists_fault (h : ∀ k : Key role, ¬k.WrittenAs text) : ∃ e, Key.Fault text e := by
  cases hread : (Key.ofBase64 text : Except ValueError (Key role)) with
  | ok k => exact absurd (Key.ofBase64_eq_ok_iff.1 hread) (h k)
  | error e => exact ⟨e, Key.ofBase64_eq_error_iff.1 hread⟩

theorem Key.exists_writtenAs_iff : (∃ k : Key role, k.WrittenAs text) ↔ ∀ e, ¬Key.Fault text e := by
  constructor
  · rintro ⟨k, hk⟩ e he
    exact he.not_writtenAs hk
  · intro h
    by_contra hnone
    obtain ⟨e, he⟩ := Key.exists_fault (not_exists.1 hnone)
    exact h e he

/-! ## Wording -/

theorem ValueError.toList_message_ofBase64 (e : Text.Base64.Error) :
    (ValueError.ofBase64 e).message.toList = 'D' ::
      ("ecoding error: base64 decode: ".toList ++ e.message.toList) := by
  show ("Decoding error: " ++ "base64 decode" ++ ": " ++ e.message).toList = _
  simp only [String.toList_append, List.append_assoc]
  rfl

theorem ValueError.toList_message_invalidLength (n : Nat) :
    (ValueError.invalidLength keySize n).message.toList = 'I' ::
      ("nvalid length: expected 32, got ".toList ++ (toString n).toList) := by
  show ("Invalid length: expected " ++ "32" ++ ", got " ++ toString n).toList = _
  simp only [String.toList_append, List.append_assoc]
  rfl

/-- **The wording tells all of a fault.** -/
theorem Key.Fault.eq_of_message {text' : String} (h : Key.Fault text e) (h' : Key.Fault text' e')
    (hmessage : e.message = e'.message) : e = e' := by
  have hmessage := congrArg String.toList hmessage
  cases h with
  | decoding =>
    cases h' with
    | decoding =>
      rw [ValueError.toList_message_ofBase64, ValueError.toList_message_ofBase64] at hmessage
      have hmessage := List.append_cancel_left (List.tail_eq_of_cons_eq hmessage)
      rw [Text.Base64.Error.message_injective (String.toList_injective hmessage)]
    | length =>
      rw [ValueError.toList_message_ofBase64, ValueError.toList_message_invalidLength] at hmessage
      exact absurd (List.head_eq_of_cons_eq hmessage) (by decide)
  | length =>
    cases h' with
    | decoding =>
      rw [ValueError.toList_message_ofBase64, ValueError.toList_message_invalidLength] at hmessage
      exact absurd (List.head_eq_of_cons_eq hmessage) (by decide)
    | length =>
      rw [ValueError.toList_message_invalidLength,
        ValueError.toList_message_invalidLength] at hmessage
      rw [Text.toString_toList_inj (List.append_cancel_left (List.tail_eq_of_cons_eq hmessage))]

end SealedTx
