import SealedTx.Config
import SealedTx.Proofs.KeySource

/-!
# Converting the sources of keys

The sources of a configuration are converted one by one. They give the pairs that each of them
stands for, and so in their order (`keyPairs_eq_ok_iff`), or else the error of the first source that
stands for none (`keyPairs_eq_error_iff`).

So no source matters to what another one gives, and of the vaults only the answers to what the
sources request (`keyPairs_exact`).
-/

namespace SealedTx.Config

open Outcome
open KeySource (Converts Fails AnsweredAlike toPair_eq_ok_iff toPair_eq_error_iff)

variable {vaults vaults' : List Vault} {sources : List KeySource} {s : KeySource}
  {pairs : List KeyPair} {p : KeyPair} {e : NodeError}

/-- Whether a source is the first one that stands for no pair, and with what error it fails. -/
def FailsAt (vaults : List Vault) (sources : List KeySource) (i : Nat) (s : KeySource)
    (e : NodeError) : Prop :=
  ∃ before behind, sources = before ++ s :: behind ∧ before.length = i ∧
    (∀ s' ∈ before, ∃ p, Converts vaults s' p) ∧ Fails vaults (sourceField i) s e

theorem keyPairs_eq_ok_iff :
    keyPairs vaults sources = .ok pairs ↔ List.Forall₂ (Converts vaults) sources pairs :=
  mapM_zipIdx_eq_ok_iff fun _ _ _ => toPair_eq_ok_iff

theorem forall_toPair_iff :
    (∀ x ∈ sources.zipIdx, ∃ p, x.1.toPair vaults (sourceField x.2) = .ok p) ↔
      ∀ s ∈ sources, ∃ p, Converts vaults s p := by
  simp only [toPair_eq_ok_iff]
  rw [← List.forall_mem_map (f := Prod.fst) (P := fun s => ∃ p, Converts vaults s p),
    List.zipIdx_map_fst]

/-- The first source that stands for no pair is found by its place. -/
theorem keyPairs_eq_error_iff :
    keyPairs vaults sources = .error e ↔ ∃ i s, FailsAt vaults sources i s e := by
  rw [keyPairs, mapM_eq_error_iff, failsFirst_zipIdx_iff]
  simp only [forall_toPair_iff, toPair_eq_error_iff, Nat.zero_add]
  constructor
  · rintro ⟨before, s, behind, hsources, hbefore, hs⟩
    exact ⟨before.length, s, before, behind, hsources, rfl, hbefore, hs⟩
  · rintro ⟨_, s, before, behind, hsources, rfl, hbefore, hs⟩
    exact ⟨before, s, behind, hsources, hbefore, hs⟩

theorem keyPairs_singleton_eq_ok_iff : keyPairs vaults [s] = .ok [p] ↔ Converts vaults s p := by
  rw [keyPairs_eq_ok_iff]
  simp

theorem exists_keyPairs_iff :
    (∃ pairs, keyPairs vaults sources = .ok pairs) ↔ ∀ s ∈ sources, ∃ p, Converts vaults s p := by
  rw [keyPairs, exists_mapM_eq_ok_iff, forall_toPair_iff]

/-- Vaults that answer alike what the sources request give the same pairs or the same error. -/
theorem keyPairs_congr (h : ∀ s ∈ sources, AnsweredAlike vaults vaults' s) :
    keyPairs vaults' sources = keyPairs vaults sources := by
  cases hpairs : keyPairs vaults sources with
  | ok pairs =>
    rw [keyPairs_eq_ok_iff, List.forall₂_iff_zip] at hpairs ⊢
    exact ⟨hpairs.1, fun hmem => (hpairs.2 hmem).congr (h _ (List.of_mem_zip hmem).1)⟩
  | error e =>
    rw [keyPairs_eq_error_iff] at hpairs ⊢
    obtain ⟨i, s, before, behind, rfl, hi, hbefore, hs⟩ := hpairs
    refine ⟨i, s, before, behind, rfl, hi, fun s' hs' => ?_, hs.congr (h s (by simp))⟩
    obtain ⟨p, hp⟩ := hbefore s' hs'
    exact ⟨p, hp.congr (h s' (by simp [hs']))⟩

theorem FailsAt.append {i : Nat} (h : FailsAt vaults sources i s e) (more : List KeySource) :
    FailsAt vaults (sources ++ more) i s e := by
  obtain ⟨before, behind, rfl, h⟩ := h
  exact ⟨before, behind ++ more, by simp, h⟩

/-- **Sources are converted one by one.** The pairs are those that the sources stand for, in their
order; they are had exactly if every source alone can be converted. Else the error is that of the
first source that stands for no pair, and blames the configuration for an inline key and for a kind
without a vault, and the vault for a secret. Nothing matters but what the vaults answer to the
requests, of each kind the first one; nor do more sources behind one that fails. -/
theorem keyPairs_exact (vaults : List Vault) (sources : List KeySource) :
    (∀ pairs, keyPairs vaults sources = .ok pairs ↔
      List.Forall₂ (Converts vaults) sources pairs) ∧
    ((∃ pairs, keyPairs vaults sources = .ok pairs) ↔
      ∀ s ∈ sources, ∃ p, keyPairs vaults [s] = .ok [p]) ∧
    (∀ e, keyPairs vaults sources = .error e ↔ ∃ i s, FailsAt vaults sources i s e) ∧
    ((∀ v ∈ vaults, v.Lawful) → ∀ i s e, FailsAt vaults sources i s e →
      (s.vaultKind? = none ∧ ∃ key ∈ [".public_key", ".private_key"], ∃ reason,
        e = .configInvalid (sourceField i ++ key) reason) ∨
      ∃ kind, s.vaultKind? = some kind ∧
        ((∀ v ∈ vaults, v.kind ≠ kind) ∧
          e = .configInvalid (sourceField i) s!"no {kind.name} key vault is configured" ∨
        (∃ v ∈ vaults, v.kind = kind) ∧
          ∃ vault secret reason, e = .keyVault vault secret reason)) ∧
    (∀ vaults', (∀ s ∈ sources, AnsweredAlike vaults vaults' s) →
      keyPairs vaults' sources = keyPairs vaults sources) ∧
    (∀ v, (∃ w ∈ vaults, w.kind = v.kind) →
      keyPairs (vaults ++ [v]) sources = keyPairs vaults sources) ∧
    ∀ e, keyPairs vaults sources = .error e →
      ∀ more, keyPairs vaults (sources ++ more) = .error e := by
  refine ⟨fun pairs => keyPairs_eq_ok_iff, ?_, fun e => keyPairs_eq_error_iff, ?_,
    fun vaults' => keyPairs_congr, ?_, ?_⟩
  · simp only [keyPairs_singleton_eq_ok_iff]
    exact exists_keyPairs_iff
  · rintro hlawful i s e ⟨_, _, _, _, _, hs⟩
    exact hs.error_cases hlawful
  · rintro v ⟨w, hw, hkind⟩
    refine keyPairs_congr fun s _ r r' _ => ⟨fun a => ?_, fun a => ?_⟩
    · exact (answers_append_of_mem hw hkind).symm
    · exact (answers_append_of_mem hw hkind).symm
  · intro e h more
    obtain ⟨i, s, hs⟩ := keyPairs_eq_error_iff.1 h
    exact keyPairs_eq_error_iff.2 ⟨i, s, hs.append more⟩

/-- A pair of plain keys. -/
def samplePair : KeyPair := ⟨⟨List.replicate 32 1, rfl⟩, ⟨List.replicate 32 2, rfl⟩⟩

/-- A vault with the keys of the pair. -/
def sampleVault : MemoryVault :=
  .ofList .aws [("public", samplePair.publicKey.toBase64),
    ("private", samplePair.privateKey.toBase64)]

/-- The vault has the pair of the first source, and there is none for the second one. Neither
further sources nor another vault of the same kind matter. -/
theorem keyPairs_exact_vault :
    (∀ v ∈ [sampleVault.toVault], v.Lawful) ∧
    keyPairs [sampleVault.toVault] [.aws "public" "private"] = .ok [samplePair] ∧
    ∀ more, keyPairs ([sampleVault.toVault] ++ [⟨.aws, fun r => .ok r.label⟩])
        ([.aws "public" "private", .azure "public" "private" none none] ++ more) =
      .error (.configInvalid "keys.key_data[1]" "no azure key vault is configured") := by
  have hfirst : FirstOfKind [sampleVault.toVault] .aws sampleVault.toVault :=
    ⟨[], [], rfl, rfl, nofun⟩
  have hpair : Converts [sampleVault.toVault] (.aws "public" "private") samplePair :=
    .fetched rfl ⟨_, hfirst, by decide +kernel⟩ (Key.writtenAs_toBase64 _)
      ⟨_, hfirst, by decide +kernel⟩ (Key.writtenAs_toBase64 _)
  have hrequests : KeySource.requests? (.azure "public" "private" none none) =
      some (.azure "public" none, .azure "private" none) := rfl
  have hfault : Fails [sampleVault.toVault] (sourceField 1) (.azure "public" "private" none none)
      (.configInvalid (sourceField 1) s!"no {VaultKind.azure.name} key vault is configured") :=
    .noVault hrequests (by decide)
  refine ⟨by simp [MemoryVault.toVault_lawful], ?_, fun more => ?_⟩
  · exact ((keyPairs_exact _ _).1 _).2 (.cons hpair .nil)
  · obtain ⟨_, _, herror, _, _, _, hmore⟩ := keyPairs_exact [sampleVault.toVault]
      [.aws "public" "private", .azure "public" "private" none none]
    obtain ⟨_, _, _, _, _, hfurther, _⟩ := keyPairs_exact [sampleVault.toVault]
      ([.aws "public" "private", .azure "public" "private" none none] ++ more)
    rw [hfurther ⟨.aws, fun r => .ok r.label⟩ ⟨sampleVault.toVault, by simp, rfl⟩]
    refine hmore _ ((herror _).2 ⟨1, _, [.aws "public" "private"], [], rfl, rfl, ?_, hfault⟩) more
    rintro _ hs
    cases List.mem_singleton.1 hs
    exact ⟨_, hpair⟩

end SealedTx.Config
