import SealedTx.Startup
import SealedTx.Proofs.Config.Sources
import SealedTx.Proofs.KeyTable

/-!
# Checking and starting

A configuration is checked before a node starts, and read again when its key table is made. If it
holds the texts of its keys itself, both go through the same texts in the same order: those of the
pairs, of each the public one first, and then those of the keys that get a copy (`keyTexts`). So
both blame the same text (`FirstFault`), and a configuration that passes the check gives a table,
unless a public key comes twice (`check_agrees`).
-/

namespace SealedTx

open Outcome

namespace KeySource

variable {vaults : List Vault} {field publicText privateText : String} {s : KeySource}
  {e : NodeError}

/-- The texts of keys that a source in a field holds, each with its own field. -/
def texts (field : String) : KeySource → List (String × String)
  | inline publicText privateText =>
    [(s!"{field}.public_key", publicText), (s!"{field}.private_key", privateText)]
  | _ => []

/-- Whether the texts of a list are those of keys up to one, and the error that blames it. -/
def BlamesFirst (texts : List (String × String)) (e : NodeError) : Prop :=
  ∃ before field text behind f, texts = before ++ (field, text) :: behind ∧
    (∀ x ∈ before, ∀ f, ¬Key.Fault x.2 f) ∧ Key.Fault text f ∧ e = .configInvalid field f.message

/-- A text in a field is read whatever the role of its key; here it is taken as a public one. -/
def readText (x : String × String) : Except NodeError PublicKey := writtenKey x.1 x.2

theorem failsFirst_readText_iff {texts : List (String × String)} :
    FailsFirst readText texts e ↔ BlamesFirst texts e := by
  simp only [FailsFirst, readText, writtenKey_eq_ok_iff, writtenKey_eq_error_iff,
    Key.exists_writtenAs_iff]
  constructor
  · rintro ⟨before, ⟨field, text⟩, behind, htexts, hbefore, f, hf, rfl⟩
    exact ⟨before, field, text, behind, f, htexts, hbefore, hf, rfl⟩
  · rintro ⟨before, field, text, behind, f, htexts, hbefore, hf, rfl⟩
    exact ⟨before, (field, text), behind, htexts, hbefore, f, hf, rfl⟩

theorem writtenPair_eq_error_iff_texts :
    writtenPair field publicText privateText = .error e ↔
      FailsFirst readText ((inline publicText privateText).texts field) e := by
  rw [writtenPair_eq_error_iff, texts, failsFirst_cons_iff, failsFirst_cons_iff]
  simp only [readText, writtenKey_eq_ok_iff, writtenKey_eq_error_iff, not_failsFirst_nil, and_false,
    or_false]

theorem eq_inline_of_vaultKind? (h : s.vaultKind? = none) :
    ∃ publicText privateText, s = .inline publicText privateText := by
  cases s with
  | inline publicText privateText => exact ⟨publicText, privateText, rfl⟩
  | azure | hashicorp | aws => cases h

theorem toPair_eq_error_iff_texts (h : s.vaultKind? = none) :
    s.toPair vaults field = .error e ↔ FailsFirst readText (s.texts field) e := by
  obtain ⟨publicText, privateText, rfl⟩ := eq_inline_of_vaultKind? h
  exact writtenPair_eq_error_iff_texts

theorem check_eq_error_iff_texts (h : s.vaultKind? = none) :
    s.check field = .error e ↔ FailsFirst readText (s.texts field) e := by
  obtain ⟨publicText, privateText, rfl⟩ := eq_inline_of_vaultKind? h
  rw [← writtenPair_eq_error_iff_texts, check, bind_eq_error_iff]
  simp [pure, Except.pure]

end KeySource

namespace Config

open KeySource (texts readText BlamesFirst Converts)

variable {c : Config} {vaults : List Vault} {e : NodeError} {field reason : String}

/-- The texts of keys that the sources of a configuration hold. -/
def sourceTexts (c : Config) : List (String × String) :=
  c.sources.zipIdx.flatMap fun e => e.1.texts (sourceField e.2)

/-- The texts of the keys that get a copy. -/
def forwardingTexts (c : Config) : List (String × String) :=
  c.forwarding.zipIdx.map fun e => (forwardingField e.2, e.1)

/-- The texts of all keys, each with its field. -/
def keyTexts (c : Config) : List (String × String) := c.sourceTexts ++ c.forwardingTexts

theorem keyPairs_eq_error_iff_texts (hinline : ∀ s ∈ c.sources, s.vaultKind? = none) :
    keyPairs vaults c.sources = .error e ↔ FailsFirst readText c.sourceTexts e := by
  rw [keyPairs, mapM_eq_error_iff, sourceTexts]
  exact failsFirst_flatMap_iff fun x hx e =>
    KeySource.toPair_eq_error_iff_texts (hinline x.1 (List.fst_mem_of_mem_zipIdx hx))

theorem checkSources_eq_error_iff_texts (hne : c.sources ≠ [])
    (hinline : ∀ s ∈ c.sources, s.vaultKind? = none) :
    c.checkSources = .error e ↔ FailsFirst readText c.sourceTexts e := by
  rw [checkSources, if_neg hne, sourceTexts]
  refine forM_eq_error_iff.trans (failsFirst_flatMap_iff fun x hx e => ?_)
  exact KeySource.check_eq_error_iff_texts (hinline x.1 (List.fst_mem_of_mem_zipIdx hx))

theorem forwardingKeys_eq_error_iff_texts :
    c.forwardingKeys = .error e ↔ FailsFirst readText c.forwardingTexts e := by
  rw [← mapM_eq_error_iff, forwardingTexts, List.mapM_map, forwardingKeys]
  simp only [Function.comp_def, readText]

theorem forwardingKeys_eq_ok_iff {keys : List PublicKey} : c.forwardingKeys = .ok keys ↔
    List.Forall₂ (fun text k => k.WrittenAs text) c.forwarding keys := by
  refine mapM_zipIdx_eq_ok_iff ?_
  intro text i k
  exact KeySource.writtenKey_eq_ok_iff

/-! ## Fields -/

theorem exists_field_of_mem_keyTexts {x : String × String} (hx : x ∈ c.keyTexts) :
    ∃ rest, x.1 = "keys." ++ rest := by
  have hsource : ∀ i, sourceField i = "keys." ++ s!"key_data[{i}]" := by
    intro i
    show "keys.key_data[" ++ toString i ++ "]" = "keys." ++ ("key_data[" ++ toString i ++ "]")
    rw [← String.append_assoc, ← String.append_assoc]
    rfl
  have hforwarding : ∀ i, forwardingField i = "keys." ++ s!"forwarding_keys[{i}]" := by
    intro i
    show "keys.forwarding_keys[" ++ toString i ++ "]" =
      "keys." ++ ("forwarding_keys[" ++ toString i ++ "]")
    rw [← String.append_assoc, ← String.append_assoc]
    rfl
  rcases List.mem_append.1 hx with hx | hx
  · obtain ⟨⟨s, i⟩, _, hx⟩ := List.mem_flatMap.1 hx
    cases s with
    | inline publicText privateText =>
      simp only [texts, List.mem_cons, List.not_mem_nil, or_false] at hx
      rcases hx with rfl | rfl
      · exact ⟨s!"key_data[{i}]" ++ ".public_key", by rw [← String.append_assoc, ← hsource]; rfl⟩
      · exact ⟨s!"key_data[{i}]" ++ ".private_key", by rw [← String.append_assoc, ← hsource]; rfl⟩
    | azure | hashicorp | aws => cases hx
  · obtain ⟨⟨text, i⟩, _, rfl⟩ := List.mem_map.1 hx
    exact ⟨_, hforwarding i⟩

/-- The field of the log level is not one for keys. -/
theorem level_field_ne (rest : String) : "logging.level" ≠ "keys." ++ rest := by
  intro h
  have h := congrArg String.toList h
  rw [String.toList_append] at h
  exact absurd (List.head_eq_of_cons_eq h) (by decide)

/-! ## What is blamed -/

/-- Whether a text is the first one at fault, by its field and the wording of its fault. -/
def FirstFault (c : Config) (field reason : String) : Prop :=
  BlamesFirst c.keyTexts (.configInvalid field reason)

theorem FirstFault.exists_field (h : c.FirstFault field reason) :
    ∃ rest, field = "keys." ++ rest := by
  obtain ⟨before, _, text, behind, f, htexts, _, _, he⟩ := h
  cases he
  have hmem : (field, text) ∈ c.keyTexts := by simp [htexts]
  exact exists_field_of_mem_keyTexts hmem

theorem checkLevel_eq_configInvalid (h : c.checkLevel = .error (.configInvalid field reason)) :
    field = "logging.level" := by
  unfold checkLevel at h
  split at h
  · cases h
  · cases h
    rfl

section Inline

variable (hne : c.sources ≠ []) (hinline : ∀ s ∈ c.sources, s.vaultKind? = none)

include hinline

theorem keyTable_eq_configInvalid_iff :
    c.keyTable vaults = .error (.configInvalid field reason) ↔ c.FirstFault field reason := by
  have hpairs : (∃ pairs, keyPairs vaults c.sources = .ok pairs) ↔ _ :=
    exists_ok_iff_of_failsFirst fun e => keyPairs_eq_error_iff_texts hinline
  rw [FirstFault, ← KeySource.failsFirst_readText_iff, keyTexts, failsFirst_append_iff, ← hpairs,
    keyTable]
  simp only [bind_eq_error_iff, mapError_eq_error_iff, keyPairs_eq_error_iff_texts hinline,
    forwardingKeys_eq_error_iff_texts]
  simp

include hne

theorem check_eq_configInvalid_iff :
    (c.check = .error (.configInvalid field reason) ∧ ∃ rest, field = "keys." ++ rest) ↔
      c.FirstFault field reason := by
  have hsources : (∃ u, c.checkSources = .ok u) ↔ _ :=
    exists_ok_iff_of_failsFirst fun e => checkSources_eq_error_iff_texts hne hinline
  have hfault : c.FirstFault field reason ↔ _ := KeySource.failsFirst_readText_iff.symm
  rw [keyTexts, failsFirst_append_iff, ← hsources] at hfault
  rw [check]
  simp only [bind_eq_error_iff, checkSources_eq_error_iff_texts hne hinline,
    forwardingKeys_eq_error_iff_texts]
  constructor
  · rintro ⟨h | ⟨u, hu, h | ⟨_, _, h⟩⟩, rest, hfield⟩
    · exact hfault.2 (.inl h)
    · exact hfault.2 (.inr ⟨⟨u, hu⟩, h⟩)
    · -- the log level is judged last, and its field is not one for keys
      exact absurd (checkLevel_eq_configInvalid h ▸ hfield) (level_field_ne rest)
  · intro h
    refine ⟨?_, h.exists_field⟩
    rcases hfault.1 h with h | ⟨⟨u, hu⟩, h⟩
    · exact .inl h
    · exact .inr ⟨u, hu, .inl h⟩

theorem keyTable_of_check (vaults : List Vault) (h : c.check = .ok ()) : ∃ pairs forwarding,
    List.Forall₂ (Converts vaults) c.sources pairs ∧
    List.Forall₂ (fun text k => k.WrittenAs text) c.forwarding forwarding ∧
    c.keyTable vaults = (KeyTable.ofPairs pairs forwarding).mapError .enclave := by
  obtain ⟨_, hsources, h⟩ := bind_eq_ok_iff.1 h
  obtain ⟨forwarding, hforwarding, _⟩ := bind_eq_ok_iff.1 h
  obtain ⟨pairs, hpairs⟩ : ∃ pairs, keyPairs vaults c.sources = .ok pairs := by
    rw [exists_ok_iff_of_failsFirst fun e => keyPairs_eq_error_iff_texts hinline,
      ← exists_ok_iff_of_failsFirst fun e => checkSources_eq_error_iff_texts hne hinline]
    exact ⟨_, hsources⟩
  refine ⟨pairs, forwarding, keyPairs_eq_ok_iff.1 hpairs,
    forwardingKeys_eq_ok_iff.1 hforwarding, ?_⟩
  rw [keyTable, hpairs, hforwarding, ok_bind, ok_bind]

end Inline

/-- **A configuration that holds its keys itself is checked as it is read.** The check blames a
field for keys exactly if making the table does, and then both blame the first text that is not that
of a key, with one reason. If the check passes, there is a table unless a public key comes twice,
and then the first one that did is blamed; the table keeps just the pairs that are written, and the
first one is the default. -/
theorem check_agrees (c : Config) (vaults : List Vault) (hne : c.sources ≠ [])
    (hinline : ∀ s ∈ c.sources, s.vaultKind? = none) :
    (∀ field reason,
      (c.check = .error (.configInvalid field reason) ∧ ∃ rest, field = "keys." ++ rest) ↔
        c.keyTable vaults = .error (.configInvalid field reason)) ∧
    (∀ field reason, c.keyTable vaults = .error (.configInvalid field reason) ↔
      c.FirstFault field reason) ∧
    (c.check = .ok () → ∃ pairs forwarding,
      List.Forall₂ (Converts vaults) c.sources pairs ∧
      List.Forall₂ (fun text k => k.WrittenAs text) c.forwarding forwarding ∧
      ((∃ t, c.keyTable vaults = .ok t) ↔ (pairs.map (·.publicKey)).Nodup) ∧
      (¬(pairs.map (·.publicKey)).Nodup → ∃ k,
        KeyTable.FirstRepeat (pairs.map (·.publicKey)) k ∧
        c.keyTable vaults =
          .error (.enclave (.value (.alreadyExists "key pair" k.toBase64)))) ∧
      ∀ t, c.keyTable vaults = .ok t → t.Keeps pairs forwarding) := by
  have htable : ∀ field reason, c.keyTable vaults = .error (.configInvalid field reason) ↔
      c.FirstFault field reason := fun _ _ => keyTable_eq_configInvalid_iff hinline
  refine ⟨fun field reason => ?_, htable, fun h => ?_⟩
  · rw [htable, check_eq_configInvalid_iff hne hinline]
  · obtain ⟨pairs, forwarding, hpairs, hforwarding, hkeyTable⟩ :=
      keyTable_of_check hne hinline vaults h
    refine ⟨pairs, forwarding, hpairs, hforwarding, ?_⟩
    have hsome : pairs ≠ [] := by
      rintro rfl
      exact hne (List.forall₂_nil_right_iff.1 hpairs)
    rcases KeyTable.nodup_or_firstRepeat (pairs.map (·.publicKey)) with hnodup | ⟨k, hk⟩
    · obtain ⟨t, ht, hkeeps⟩ := KeyTable.ofPairs_of_nodup forwarding hsome hnodup
      rw [hkeyTable, ht]
      refine ⟨iff_of_true ⟨t, rfl⟩ hnodup, fun h => absurd hnodup h, ?_⟩
      rintro _ ht'
      cases ht'
      exact hkeeps
    · rw [hkeyTable, KeyTable.ofPairs_of_firstRepeat hk]
      exact ⟨iff_of_false nofun hk.not_nodup, fun _ => ⟨k, hk, rfl⟩, nofun⟩

/-- The keys of a pair, of which the private one ends with a line. -/
def sampleSource : KeySource :=
  .inline samplePair.publicKey.toBase64 (samplePair.privateKey.toBase64 ++ "\n")

/-- A configuration with sources of keys and one key that gets a copy. -/
def sampleConfig (sources : List KeySource) : Config where
  sources := sources
  forwarding := [samplePair.publicKey.toBase64]

/-- The pair gives a table; the pair twice passes the check, but gives none; half a private key does
not pass. -/
theorem check_agrees_sample :
    (∃ t, (sampleConfig [sampleSource]).keyTable [] = .ok t ∧
      t.Keeps [samplePair] [samplePair.publicKey]) ∧
    (sampleConfig [sampleSource, sampleSource]).keyTable [] =
      .error (.enclave (.value (.alreadyExists "key pair" samplePair.publicKey.toBase64))) ∧
    ∃ reason, (sampleConfig [.inline samplePair.publicKey.toBase64 "AAA="]).check =
      .error (.configInvalid "keys.key_data[0].private_key" reason) := by
  refine ⟨?_, ?_, ?_⟩
  · obtain ⟨_, _, hpass⟩ := check_agrees (sampleConfig [sampleSource]) [] (by decide) (by decide)
    obtain ⟨pairs, forwarding, hpairs, hforwarding, hiff, _, hkeeps⟩ := hpass (by decide +kernel)
    have hread : keyPairs [] [sampleSource] = .ok [samplePair] := by decide +kernel
    obtain rfl : pairs = [samplePair] :=
      Except.ok.inj ((keyPairs_eq_ok_iff.2 hpairs).symm.trans hread)
    have hread : (sampleConfig [sampleSource]).forwardingKeys = .ok [samplePair.publicKey] := by
      decide +kernel
    obtain rfl : forwarding = [samplePair.publicKey] :=
      Except.ok.inj ((forwardingKeys_eq_ok_iff.2 hforwarding).symm.trans hread)
    obtain ⟨t, ht⟩ := hiff.2 (by simp)
    exact ⟨t, ht, hkeeps t ht⟩
  · obtain ⟨_, _, hpass⟩ :=
      check_agrees (sampleConfig [sampleSource, sampleSource]) [] (by decide) (by decide)
    obtain ⟨pairs, _, hpairs, _, _, hrepeat, _⟩ := hpass (by decide +kernel)
    have hread : keyPairs [] [sampleSource, sampleSource] = .ok [samplePair, samplePair] := by
      decide +kernel
    obtain rfl : pairs = [samplePair, samplePair] :=
      Except.ok.inj ((keyPairs_eq_ok_iff.2 hpairs).symm.trans hread)
    obtain ⟨k, ⟨before, behind, hkeys, _, hk⟩, htable⟩ := hrepeat (by simp)
    have hmem : k ∈ [samplePair, samplePair].map (·.publicKey) := by simp [hkeys]
    obtain rfl : k = samplePair.publicKey := by simpa using hmem
    exact htable
  · obtain ⟨hcheck, hfirst, _⟩ := check_agrees
      (sampleConfig [.inline samplePair.publicKey.toBase64 "AAA="]) [] (by decide) (by decide)
    have hfault : Key.Fault "AAA=" (.invalidLength keySize 2) :=
      .length (b := [0, 0]) (by decide +kernel) (by decide)
    have hpublic : ∀ f, ¬Key.Fault samplePair.publicKey.toBase64 f :=
      fun f h => h.not_writtenAs (Key.writtenAs_toBase64 samplePair.publicKey)
    have htable := (hfirst _ _).2 ⟨[("keys.key_data[0].public_key", samplePair.publicKey.toBase64)],
      "keys.key_data[0].private_key", "AAA=", _, _, rfl, by simpa using hpublic, hfault, rfl⟩
    exact ⟨_, ((hcheck _ _).2 htable).1⟩

end Config

end SealedTx
