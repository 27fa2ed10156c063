import SealedTx.KeySource
import SealedTx.Proofs.Key

/-!
# Converting a source of keys

What pair a source stands for is told here from its texts and from what the vaults answer
(`Converts`): the texts of an inline source are those of the two keys, and those of any other source
are the answers to its two requests. Only the first vault of a kind is ever asked (`Answers`).

A source that stands for no pair has one fault (`Fails`). The public key is judged before the
private one is asked for.
-/

namespace SealedTx

open Outcome

/-! ## What the vaults answer -/

/-- Whether a vault is the first one of a kind. -/
def FirstOfKind (vaults : List Vault) (kind : VaultKind) (v : Vault) : Prop :=
  ∃ before behind, vaults = before ++ v :: behind ∧ v.kind = kind ∧ ∀ w ∈ before, w.kind ≠ kind

/-- What is answered to a request by the first vault of the kind that it is for. -/
def Answers (vaults : List Vault) (r : SecretRequest) (a : Except NodeError String) : Prop :=
  ∃ v, FirstOfKind vaults r.kind v ∧ v.fetch r = a

section Vaults

variable {vaults : List Vault} {kind : VaultKind} {v w : Vault} {r : SecretRequest}

theorem firstOfKind?_eq_some_iff :
    firstOfKind? vaults kind = some v ↔ FirstOfKind vaults kind v := by
  rw [firstOfKind?, List.find?_eq_some_iff_append]
  simp only [beq_iff_eq, Bool.not_eq_true', beq_eq_false_iff_ne, ne_eq]
  constructor
  · rintro ⟨hkind, before, behind, hvaults, hbefore⟩
    exact ⟨before, behind, hvaults, hkind, hbefore⟩
  · rintro ⟨before, behind, hvaults, hkind, hbefore⟩
    exact ⟨hkind, before, behind, hvaults, hbefore⟩

theorem firstOfKind?_eq_none_iff :
    firstOfKind? vaults kind = none ↔ ∀ w ∈ vaults, w.kind ≠ kind := by
  simp [firstOfKind?]

theorem FirstOfKind.answers_iff (hv : FirstOfKind vaults r.kind v) {a : Except NodeError String} :
    Answers vaults r a ↔ v.fetch r = a := by
  constructor
  · rintro ⟨w, hw, ha⟩
    rw [← firstOfKind?_eq_some_iff] at hv hw
    rw [hv] at hw
    rw [Option.some.inj hw]
    exact ha
  · intro ha
    exact ⟨v, hv, ha⟩

theorem not_exists_answers_iff :
    (¬∃ a, Answers vaults r a) ↔ ∀ v ∈ vaults, v.kind ≠ r.kind := by
  rw [← firstOfKind?_eq_none_iff, Option.eq_none_iff_forall_ne_some]
  simp only [Answers, ne_eq, firstOfKind?_eq_some_iff]
  constructor
  · intro h v hv
    exact h ⟨_, v, hv, rfl⟩
  · rintro h ⟨_, v, hv, _⟩
    exact h v hv

/-- A vault behind another of its kind is never asked. -/
theorem firstOfKind?_append_of_mem (hw : w ∈ vaults) (hkind : w.kind = v.kind) :
    firstOfKind? (vaults ++ [v]) kind = firstOfKind? vaults kind := by
  rw [firstOfKind?, firstOfKind?, List.find?_append]
  by_cases hv : v.kind = kind
  · have hsome : (vaults.find? fun u => u.kind == kind).isSome := by
      rw [List.find?_isSome]
      exact ⟨w, hw, beq_iff_eq.2 (hkind.trans hv)⟩
    rw [Option.or_of_isSome hsome]
  · rw [List.find?_singleton, if_neg (by simpa using hv), Option.or_none]

theorem answers_append_of_mem (hw : w ∈ vaults) (hkind : w.kind = v.kind)
    {a : Except NodeError String} : Answers (vaults ++ [v]) r a ↔ Answers vaults r a := by
  simp only [Answers, ← firstOfKind?_eq_some_iff, firstOfKind?_append_of_mem hw hkind]

/-- Whether a vault that gives no secret says so with an error of vaults. -/
def Vault.Lawful (v : Vault) : Prop :=
  ∀ r e, v.fetch r = .error e → ∃ vault secret reason, e = .keyVault vault secret reason

theorem MemoryVault.toVault_lawful (v : MemoryVault) : v.toVault.Lawful := by
  intro r e h
  replace h : v.fetch r = .error e := h
  unfold MemoryVault.fetch at h
  split at h
  · cases h
    exact ⟨_, _, _, rfl⟩
  · split at h
    · cases h
    · cases h
      exact ⟨_, _, _, rfl⟩

end Vaults

namespace KeySource

variable {role : KeyRole} {vaults : List Vault} {v : Vault} {r r' : SecretRequest}
  {field text publicText privateText : String} {s : KeySource} {k : Key role} {p : KeyPair}
  {e : NodeError}

/-- The requests for the public and the private key, if a source needs a vault. -/
def requests? : KeySource → Option (SecretRequest × SecretRequest)
  | inline _ _ => none
  | azure publicId privateId publicVersion privateVersion =>
    some (.azure publicId publicVersion, .azure privateId privateVersion)
  | hashicorp engine secret publicId privateId version =>
    some (.hashicorp engine secret publicId version, .hashicorp engine secret privateId version)
  | aws publicId privateId => some (.aws publicId, .aws privateId)

/-- Both requests are for the kind of vault that the source needs. -/
theorem kind_of_requests? (h : s.requests? = some (r, r')) :
    s.vaultKind? = some r.kind ∧ r'.kind = r.kind := by
  cases s with
  | inline => cases h
  | azure | hashicorp | aws =>
    cases h
    exact ⟨rfl, rfl⟩

theorem inline_or_requests? (s : KeySource) :
    (∃ publicText privateText, s = .inline publicText privateText) ∨
      ∃ r r', s.requests? = some (r, r') := by
  cases s with
  | inline publicText privateText => exact .inl ⟨publicText, privateText, rfl⟩
  | azure | hashicorp | aws => exact .inr ⟨_, _, rfl⟩

theorem toPair_of_requests? (h : s.requests? = some (r, r')) :
    s.toPair vaults field = fetchedPair vaults field r r' := by
  cases s with
  | inline => cases h
  | azure | hashicorp | aws =>
    cases h
    rfl

/-! ## What a source stands for -/

/-- The pair that a source stands for. -/
inductive Converts (vaults : List Vault) : KeySource → KeyPair → Prop where
  | inline {publicText privateText : String} {p : KeyPair} (hpub : p.publicKey.WrittenAs publicText)
      (hpriv : p.privateKey.WrittenAs privateText) :
      Converts vaults (.inline publicText privateText) p
  | fetched {s : KeySource} {p : KeyPair} {r r' : SecretRequest} {publicText privateText : String}
      (hs : s.requests? = some (r, r')) (hr : Answers vaults r (.ok publicText))
      (hpub : p.publicKey.WrittenAs publicText) (hr' : Answers vaults r' (.ok privateText))
      (hpriv : p.privateKey.WrittenAs privateText) : Converts vaults s p

/-- Why a secret is not had: it is not answered, or the answer is not the text of a key. -/
inductive SecretFault (vaults : List Vault) (r : SecretRequest) : NodeError → Prop where
  | fetch {e : NodeError} (h : Answers vaults r (.error e)) : SecretFault vaults r e
  | text {text : String} {f : ValueError} (h : Answers vaults r (.ok text))
      (hf : Key.Fault text f) : SecretFault vaults r
        (.keyVault r.kind.name r.label s!"secret is not a valid key: {f.message}")

/-- Why a source in a field stands for no pair. -/
inductive Fails (vaults : List Vault) (field : String) : KeySource → NodeError → Prop where
  | publicText {publicText privateText : String} {f : ValueError} (hf : Key.Fault publicText f) :
      Fails vaults field (.inline publicText privateText)
        (.configInvalid s!"{field}.public_key" f.message)
  | privateText {publicText privateText : String} {f : ValueError} {k : PublicKey}
      (hk : k.WrittenAs publicText) (hf : Key.Fault privateText f) :
      Fails vaults field (.inline publicText privateText)
        (.configInvalid s!"{field}.private_key" f.message)
  | noVault {s : KeySource} {r r' : SecretRequest} (hs : s.requests? = some (r, r'))
      (h : ∀ v ∈ vaults, v.kind ≠ r.kind) :
      Fails vaults field s (.configInvalid field s!"no {r.kind.name} key vault is configured")
  | publicSecret {s : KeySource} {r r' : SecretRequest} {e : NodeError}
      (hs : s.requests? = some (r, r')) (he : SecretFault vaults r e) : Fails vaults field s e
  | privateSecret {s : KeySource} {r r' : SecretRequest} {e : NodeError} {k : PublicKey}
      {text : String} (hs : s.requests? = some (r, r')) (hr : Answers vaults r (.ok text))
      (hk : k.WrittenAs text) (he : SecretFault vaults r' e) : Fails vaults field s e

/-! ## Texts -/

theorem writtenKey_eq_ok_iff : writtenKey field text = .ok k ↔ k.WrittenAs text := by
  rw [writtenKey, mapError_eq_ok_iff, Key.ofBase64_eq_ok_iff]

theorem writtenKey_eq_error_iff :
    (writtenKey field text : Except NodeError (Key role)) = .error e ↔
      ∃ f, Key.Fault text f ∧ e = .configInvalid field f.message := by
  rw [writtenKey, mapError_eq_error_iff]
  simp only [Key.ofBase64_eq_error_iff, eq_comm (b := e)]

theorem writtenPair_eq_ok_iff : writtenPair field publicText privateText = .ok p ↔
    p.publicKey.WrittenAs publicText ∧ p.privateKey.WrittenAs privateText := by
  rw [writtenPair]
  simp only [bind_eq_ok_iff, writtenKey_eq_ok_iff]
  constructor
  · rintro ⟨_, hpub, _, hpriv, h⟩
    cases h
    exact ⟨hpub, hpriv⟩
  · rintro ⟨hpub, hpriv⟩
    exact ⟨_, hpub, _, hpriv, rfl⟩

theorem writtenPair_eq_error_iff : writtenPair field publicText privateText = .error e ↔
    (∃ f, Key.Fault publicText f ∧ e = .configInvalid s!"{field}.public_key" f.message) ∨
    (∃ k : PublicKey, k.WrittenAs publicText) ∧
      ∃ f, Key.Fault privateText f ∧ e = .configInvalid s!"{field}.private_key" f.message := by
  rw [writtenPair]
  simp only [bind_eq_error_iff, writtenKey_eq_ok_iff, writtenKey_eq_error_iff]
  simp [pure, Except.pure]

/-! ## Secrets -/

theorem fetchedKey_eq_ok_iff (hv : FirstOfKind vaults r.kind v) :
    fetchedKey v r = .ok k ↔ ∃ text, Answers vaults r (.ok text) ∧ k.WrittenAs text := by
  rw [fetchedKey, bind_eq_ok_iff]
  simp only [mapError_eq_ok_iff, Key.ofBase64_eq_ok_iff, hv.answers_iff]

theorem fetchedKey_eq_error_iff (hv : FirstOfKind vaults r.kind v) :
    (fetchedKey v r : Except NodeError (Key role)) = .error e ↔ SecretFault vaults r e := by
  rw [fetchedKey, bind_eq_error_iff]
  simp only [mapError_eq_error_iff, Key.ofBase64_eq_error_iff, ← hv.answers_iff]
  constructor
  · rintro (h | ⟨text, h, f, hf, rfl⟩)
    · exact .fetch h
    · exact .text h hf
  · intro h
    cases h with
    | fetch h => exact .inl h
    | text h hf => exact .inr ⟨_, h, _, hf, rfl⟩

theorem SecretFault.exists_answers (h : SecretFault vaults r e) : ∃ a, Answers vaults r a := by
  cases h with
  | fetch h | text h => exact ⟨_, h⟩

/-- The pair of two secrets is that of the answers to both requests. -/
theorem fetchedPair_eq_ok_iff (hkind : r'.kind = r.kind) :
    fetchedPair vaults field r r' = .ok p ↔
      (∃ text, Answers vaults r (.ok text) ∧ p.publicKey.WrittenAs text) ∧
      ∃ text, Answers vaults r' (.ok text) ∧ p.privateKey.WrittenAs text := by
  rw [fetchedPair]
  cases hv : firstOfKind? vaults r.kind with
  | none =>
    simp [Answers, ← firstOfKind?_eq_some_iff, hv]
  | some v =>
    rw [firstOfKind?_eq_some_iff] at hv
    have hv' : FirstOfKind vaults r'.kind v := by rwa [hkind]
    simp only [bind_eq_ok_iff, fetchedKey_eq_ok_iff hv, fetchedKey_eq_ok_iff hv']
    constructor
    · rintro ⟨k, hk, k', hk', h⟩
      cases h
      exact ⟨hk, hk'⟩
    · rintro ⟨hk, hk'⟩
      exact ⟨_, hk, _, hk', rfl⟩

theorem fetchedPair_eq_error_iff (hkind : r'.kind = r.kind) :
    fetchedPair vaults field r r' = .error e ↔
      (∀ v ∈ vaults, v.kind ≠ r.kind) ∧
        e = .configInvalid field s!"no {r.kind.name} key vault is configured" ∨
      SecretFault vaults r e ∨
      (∃ k : PublicKey, ∃ text, Answers vaults r (.ok text) ∧ k.WrittenAs text) ∧
        SecretFault vaults r' e := by
  rw [fetchedPair]
  cases hv : firstOfKind? vaults r.kind with
  | none =>
    have hnone := firstOfKind?_eq_none_iff.1 hv
    have hfault : ¬SecretFault vaults r e :=
      fun h => not_exists_answers_iff.2 hnone h.exists_answers
    have hfault' : ¬SecretFault vaults r' e :=
      fun h => not_exists_answers_iff.2 (by rwa [hkind]) h.exists_answers
    rw [and_iff_right hnone]
    simp [hfault, hfault', eq_comm]
  | some v =>
    have hsome : ¬∀ v ∈ vaults, v.kind ≠ r.kind := by
      rw [← firstOfKind?_eq_none_iff, hv]
      simp
    rw [firstOfKind?_eq_some_iff] at hv
    have hv' : FirstOfKind vaults r'.kind v := by rwa [hkind]
    simp only [bind_eq_error_iff, fetchedKey_eq_ok_iff hv, fetchedKey_eq_error_iff hv,
      fetchedKey_eq_error_iff hv']
    simp [hsome, pure, Except.pure]

/-! ## Sources -/

theorem toPair_eq_ok_iff : s.toPair vaults field = .ok p ↔ Converts vaults s p := by
  constructor
  · intro h
    rcases s.inline_or_requests? with ⟨publicText, privateText, rfl⟩ | ⟨r, r', hs⟩
    · obtain ⟨hpub, hpriv⟩ := writtenPair_eq_ok_iff.1 h
      exact .inline hpub hpriv
    · rw [toPair_of_requests? hs, fetchedPair_eq_ok_iff (kind_of_requests? hs).2] at h
      obtain ⟨⟨text, hr, hpub⟩, text', hr', hpriv⟩ := h
      exact .fetched hs hr hpub hr' hpriv
  · intro h
    cases h with
    | inline hpub hpriv => exact writtenPair_eq_ok_iff.2 ⟨hpub, hpriv⟩
    | fetched hs hr hpub hr' hpriv =>
      rw [toPair_of_requests? hs, fetchedPair_eq_ok_iff (kind_of_requests? hs).2]
      exact ⟨⟨_, hr, hpub⟩, _, hr', hpriv⟩

theorem toPair_eq_error_iff : s.toPair vaults field = .error e ↔ Fails vaults field s e := by
  constructor
  · intro h
    rcases s.inline_or_requests? with ⟨publicText, privateText, rfl⟩ | ⟨r, r', hs⟩
    · rcases writtenPair_eq_error_iff.1 h with ⟨f, hf, rfl⟩ | ⟨⟨k, hk⟩, f, hf, rfl⟩
      · exact .publicText hf
      · exact .privateText hk hf
    · rw [toPair_of_requests? hs, fetchedPair_eq_error_iff (kind_of_requests? hs).2] at h
      rcases h with ⟨hnone, rfl⟩ | he | ⟨⟨k, text, hr, hk⟩, he⟩
      · exact .noVault hs hnone
      · exact .publicSecret hs he
      · exact .privateSecret hs hr hk he
  · intro h
    cases h with
    | publicText hf => exact writtenPair_eq_error_iff.2 (.inl ⟨_, hf, rfl⟩)
    | privateText hk hf => exact writtenPair_eq_error_iff.2 (.inr ⟨⟨_, hk⟩, _, hf, rfl⟩)
    | noVault hs h =>
      rw [toPair_of_requests? hs, fetchedPair_eq_error_iff (kind_of_requests? hs).2]
      exact .inl ⟨h, rfl⟩
    | publicSecret hs he =>
      rw [toPair_of_requests? hs, fetchedPair_eq_error_iff (kind_of_requests? hs).2]
      exact .inr (.inl he)
    | privateSecret hs hr hk he =>
      rw [toPair_of_requests? hs, fetchedPair_eq_error_iff (kind_of_requests? hs).2]
      exact .inr (.inr ⟨⟨_, _, hr, hk⟩, he⟩)

/-! ## Kinds of errors -/

theorem SecretFault.keyVault (hlawful : ∀ v ∈ vaults, v.Lawful) (h : SecretFault vaults r e) :
    (∃ v ∈ vaults, v.kind = r.kind) ∧ ∃ vault secret reason, e = .keyVault vault secret reason := by
  cases h with
  | fetch h =>
    obtain ⟨v, ⟨before, behind, rfl, hkind, _⟩, hfetch⟩ := h
    exact ⟨⟨v, by simp, hkind⟩, hlawful v (by simp) r e hfetch⟩
  | text h =>
    obtain ⟨v, ⟨before, behind, rfl, hkind, _⟩, _⟩ := h
    exact ⟨⟨v, by simp, hkind⟩, _, _, _, rfl⟩

/-- The configuration is blamed for an inline key and for a kind without a vault, and the vault for
a secret. -/
theorem Fails.error_cases (hlawful : ∀ v ∈ vaults, v.Lawful) (h : Fails vaults field s e) :
    (s.vaultKind? = none ∧ ∃ key ∈ [".public_key", ".private_key"], ∃ reason,
      e = .configInvalid (field ++ key) reason) ∨
    ∃ kind, s.vaultKind? = some kind ∧
      ((∀ v ∈ vaults, v.kind ≠ kind) ∧
        e = .configInvalid field s!"no {kind.name} key vault is configured" ∨
      (∃ v ∈ vaults, v.kind = kind) ∧
        ∃ vault secret reason, e = .keyVault vault secret reason) := by
  cases h with
  | publicText => exact .inl ⟨rfl, ".public_key", by simp, _, rfl⟩
  | privateText => exact .inl ⟨rfl, ".private_key", by simp, _, rfl⟩
  | noVault hs hnone => exact .inr ⟨_, (kind_of_requests? hs).1, .inl ⟨hnone, rfl⟩⟩
  | publicSecret hs he => exact .inr ⟨_, (kind_of_requests? hs).1, .inr (he.keyVault hlawful)⟩
  | privateSecret hs _ _ he =>
    obtain ⟨hsource, hkind⟩ := kind_of_requests? hs
    exact .inr ⟨_, hsource, .inr (hkind ▸ he.keyVault hlawful)⟩

/-! ## Other vaults -/

section Congr

variable {vaults' : List Vault}

/-- Whether the vaults of two lists give the same answers to what a source requests. -/
def AnsweredAlike (vaults vaults' : List Vault) (s : KeySource) : Prop :=
  ∀ r r', s.requests? = some (r, r') →
    (∀ a, Answers vaults r a ↔ Answers vaults' r a) ∧
      ∀ a, Answers vaults r' a ↔ Answers vaults' r' a

theorem SecretFault.congr (h : ∀ a, Answers vaults r a ↔ Answers vaults' r a)
    (he : SecretFault vaults r e) : SecretFault vaults' r e := by
  cases he with
  | fetch ha => exact .fetch ((h _).1 ha)
  | text ha hf => exact .text ((h _).1 ha) hf

theorem Converts.congr (h : AnsweredAlike vaults vaults' s) (hp : Converts vaults s p) :
    Converts vaults' s p := by
  cases hp with
  | inline hpub hpriv => exact .inline hpub hpriv
  | fetched hs hr hpub hr' hpriv =>
    obtain ⟨hpublic, hprivate⟩ := h _ _ hs
    exact .fetched hs ((hpublic _).1 hr) hpub ((hprivate _).1 hr') hpriv

theorem Fails.congr (h : AnsweredAlike vaults vaults' s) (he : Fails vaults field s e) :
    Fails vaults' field s e := by
  cases he with
  | publicText hf => exact .publicText hf
  | privateText hk hf => exact .privateText hk hf
  | noVault hs hnone =>
    refine .noVault hs ?_
    rw [← not_exists_answers_iff] at hnone ⊢
    rintro ⟨a, ha⟩
    exact hnone ⟨a, ((h _ _ hs).1 a).2 ha⟩
  | publicSecret hs hf => exact .publicSecret hs (hf.congr (h _ _ hs).1)
  | privateSecret hs hr hk hf =>
    obtain ⟨hpublic, hprivate⟩ := h _ _ hs
    exact .privateSecret hs ((hpublic _).1 hr) hk (hf.congr hprivate)

end Congr

end KeySource

end SealedTx
