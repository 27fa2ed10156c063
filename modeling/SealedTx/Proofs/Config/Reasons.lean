import SealedTx.Proofs.Config.Sources

/-!
# What an error tells of a private key

A private key that is written badly is blamed by its field and by the wording of its fault. The
wording tells all of the fault (`Key.Fault.eq_of_message`): of a text that is Base64 the number of
its bytes, but of any other text where the fault is, and what byte stands there. So two texts are
told apart exactly if their faults are (`reason_tells_fault`), though they may be equally long.
-/

namespace SealedTx.Config

open Outcome
open KeySource (Converts Fails writtenPair_eq_error_iff)

variable {c : Config} {vaults : List Vault} {before behind : List KeySource}
  {publicText text text' : String} {k : PublicKey} {f f' : ValueError}

/-- The configuration in which a source with a text for its private key stands among others. -/
def withPrivateText (c : Config) (before behind : List KeySource) (publicText text : String) :
    Config :=
  { c with sources := before ++ .inline publicText text :: behind }

/-- Whether two texts have one fault. -/
def SameFault (text text' : String) : Prop := ∃ f, Key.Fault text f ∧ Key.Fault text' f

theorem check_withPrivateText
    (hbefore : ∀ x ∈ before.zipIdx, x.1.check (sourceField x.2) = .ok ())
    (hk : k.WrittenAs publicText) (hf : Key.Fault text f) :
    (c.withPrivateText before behind publicText text).check =
      .error (.configInvalid s!"{sourceField before.length}.private_key" f.message) := by
  have hpair : KeySource.writtenPair (sourceField before.length) publicText text =
      .error (.configInvalid s!"{sourceField before.length}.private_key" f.message) :=
    writtenPair_eq_error_iff.2 (.inr ⟨⟨k, hk⟩, f, hf, rfl⟩)
  refine bind_eq_error_iff.2 (.inl ?_)
  rw [checkSources, if_neg (by simp [withPrivateText])]
  refine forM_eq_error_iff.2 (failsFirst_zipIdx_iff.2 ⟨before, _, behind, rfl, ?_, ?_⟩)
  · exact fun x hx => ⟨(), hbefore x hx⟩
  · rw [Nat.zero_add]
    show KeySource.check _ (.inline publicText text) = _
    rw [KeySource.check, hpair, error_bind]

theorem keyPairs_withPrivateText (hbefore : ∀ s ∈ before, ∃ p, Converts vaults s p)
    (hk : k.WrittenAs publicText) (hf : Key.Fault text f) :
    keyPairs vaults (c.withPrivateText before behind publicText text).sources =
      .error (.configInvalid s!"{sourceField before.length}.private_key" f.message) :=
  keyPairs_eq_error_iff.2
    ⟨before.length, _, before, behind, rfl, rfl, hbefore, .privateText hk hf⟩

/-- Errors that blame one field for two texts are the same exactly if the faults are. -/
theorem configInvalid_message_eq_iff {α : Type} {field : String} (hf : Key.Fault text f)
    (hf' : Key.Fault text' f') :
    (Except.error (.configInvalid field f.message) : Except NodeError α) =
      .error (.configInvalid field f'.message) ↔ SameFault text text' := by
  rw [Except.error.injEq, NodeError.configInvalid.injEq, and_iff_right rfl]
  constructor
  · intro h
    obtain rfl := hf.eq_of_message hf' h
    exact ⟨f, hf, hf'⟩
  · rintro ⟨g, hg, hg'⟩
    rw [hf.eq hg, hf'.eq hg']

/-- **An error tells two badly written private keys apart exactly if their faults differ.** If all
before it is well written, the field of the private key is blamed with the wording of its fault. So
it is when a configuration is checked, and when its sources are converted. -/
theorem reason_tells_fault (c : Config) (vaults : List Vault) (before behind : List KeySource)
    (publicText text text' : String) (hpublic : ∃ k : PublicKey, k.WrittenAs publicText)
    (htext : ∀ k : PrivateKey, ¬k.WrittenAs text) (htext' : ∀ k : PrivateKey, ¬k.WrittenAs text') :
    (∃ f, Key.Fault text f ∧
      ((∀ x ∈ before.zipIdx, x.1.check (sourceField x.2) = .ok ()) →
        (c.withPrivateText before behind publicText text).check =
          .error (.configInvalid s!"{sourceField before.length}.private_key" f.message)) ∧
      ((∀ s ∈ before, ∃ p, Converts vaults s p) →
        keyPairs vaults (c.withPrivateText before behind publicText text).sources =
          .error (.configInvalid s!"{sourceField before.length}.private_key" f.message))) ∧
    ((∀ x ∈ before.zipIdx, x.1.check (sourceField x.2) = .ok ()) →
      ((c.withPrivateText before behind publicText text).check =
        (c.withPrivateText before behind publicText text').check ↔ SameFault text text')) ∧
    ((∀ s ∈ before, ∃ p, Converts vaults s p) →
      (keyPairs vaults (c.withPrivateText before behind publicText text).sources =
        keyPairs vaults (c.withPrivateText before behind publicText text').sources ↔
          SameFault text text')) := by
  obtain ⟨k, hk⟩ := hpublic
  obtain ⟨f, hf⟩ := Key.exists_fault htext
  obtain ⟨f', hf'⟩ := Key.exists_fault htext'
  refine ⟨⟨f, hf, fun hbefore => check_withPrivateText hbefore hk hf,
    fun hbefore => keyPairs_withPrivateText hbefore hk hf⟩, fun hbefore => ?_, fun hbefore => ?_⟩
  · rw [check_withPrivateText hbefore hk hf, check_withPrivateText hbefore hk hf']
    exact configInvalid_message_eq_iff hf hf'
  · rw [keyPairs_withPrivateText hbefore hk hf, keyPairs_withPrivateText hbefore hk hf']
    exact configInvalid_message_eq_iff hf hf'

/-- Of two texts that are Base64 for two bytes each, the error tells no more. -/
theorem reason_tells_fault_short :
    (∀ k : PrivateKey, ¬k.WrittenAs "AAA=") ∧ (∀ k : PrivateKey, ¬k.WrittenAs "BBA=") ∧
    (withPrivateText {} [] [] samplePair.publicKey.toBase64 "AAA=").check =
      (withPrivateText {} [] [] samplePair.publicKey.toBase64 "BBA=").check ∧
    keyPairs [] (withPrivateText {} [] [] samplePair.publicKey.toBase64 "AAA=").sources =
      keyPairs [] (withPrivateText {} [] [] samplePair.publicKey.toBase64 "BBA=").sources := by
  have hfault : Key.Fault "AAA=" (.invalidLength keySize 2) :=
    .length (b := [0, 0]) (by decide +kernel) (by decide)
  have hfault' : Key.Fault "BBA=" (.invalidLength keySize 2) :=
    .length (b := [4, 16]) (by decide +kernel) (by decide)
  obtain ⟨_, hcheck, hconvert⟩ := reason_tells_fault {} [] [] []
    samplePair.publicKey.toBase64 "AAA=" "BBA=" ⟨_, Key.writtenAs_toBase64 _⟩
    (fun _ => hfault.not_writtenAs) fun _ => hfault'.not_writtenAs
  exact ⟨fun _ => hfault.not_writtenAs, fun _ => hfault'.not_writtenAs,
    (hcheck nofun).2 ⟨_, hfault, hfault'⟩, (hconvert nofun).2 ⟨_, hfault, hfault'⟩⟩

/-- **Errors are not the same for all badly written keys of one length.** Two plain texts that
differ in the last symbol are told apart by it. -/
theorem reason_tells_last_symbol :
    ∃ publicText text text' : String,
      (∃ k : PublicKey, k.WrittenAs publicText) ∧
      (∀ k : PrivateKey, ¬k.WrittenAs text) ∧ (∀ k : PrivateKey, ¬k.WrittenAs text') ∧
      text.length = text'.length ∧ (∀ d ∈ text.toList ++ text'.toList, d.toNat < 128) ∧
      (withPrivateText {} [] [] publicText text).check ≠
        (withPrivateText {} [] [] publicText text').check ∧
      keyPairs [] (withPrivateText {} [] [] publicText text).sources ≠
        keyPairs [] (withPrivateText {} [] [] publicText text').sources := by
  have hpublic : (Key.ofBase64 "0aBjAbh3PmGbP3j+ovAI6AN5BpqaOrR8ijmlrA+MLx0=" :
      Except ValueError PublicKey).toOption.isSome := by decide +kernel
  obtain ⟨k, hpublic⟩ := Option.isSome_iff_exists.1 hpublic
  have hk := Key.ofBase64_eq_ok_iff.1 (toOption_eq_some_iff.1 hpublic)
  have hread : (Key.ofBase64 "Saxd4hntrmL5/e6g/D869I/YMvIvrFCCCsERdNbgaLB=" :
      Except ValueError PrivateKey) = .error (.ofBase64 (.lastSymbol 66 42)) := by decide +kernel
  have hread' : (Key.ofBase64 "Saxd4hntrmL5/e6g/D869I/YMvIvrFCCCsERdNbgaLC=" :
      Except ValueError PrivateKey) = .error (.ofBase64 (.lastSymbol 67 42)) := by decide +kernel
  have hfault := Key.ofBase64_eq_error_iff.1 hread
  have hfault' := Key.ofBase64_eq_error_iff.1 hread'
  refine ⟨_, _, _, ⟨k, hk⟩, fun _ => hfault.not_writtenAs, fun _ => hfault'.not_writtenAs,
    by decide +kernel, by simp, ?_, ?_⟩
  · rw [check_withPrivateText (by simp) hk hfault, check_withPrivateText (by simp) hk hfault']
    decide +kernel
  · rw [keyPairs_withPrivateText (by simp) hk hfault, keyPairs_withPrivateText (by simp) hk hfault']
    decide +kernel

end SealedTx.Config
