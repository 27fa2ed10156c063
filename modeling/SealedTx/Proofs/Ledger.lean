import SealedTx.Proofs.Enclave.Encrypt

/-!
# What operations leave in the ledger

An operation that fails midway leaves in the ledger what it drew and sealed until then, so what a
run of operations sealed cannot be told from what they came to. It is told from the ledger that
each of them leaves (`Action.after`).

All sealing is done after all drawing, by steps that only add seals of a known kind
(`Action.OnlySeals`). So for each operation there is one lemma that says how many draws it makes and
which seals it can add: a message under the master key that was drawn first, and boxes
(`IsBoxSeal`).
-/

namespace SealedTx

namespace Action

variable {α β : Type} {P : SealCall → Prop}

/-- The ledger that a step leaves, be it that it fails. -/
def after (a : Action α) (l : Ledger) : Ledger :=
  match a.run l with
  | .ok _ l' => l'
  | .error _ l' => l'

/-- After a step that fails nothing is drawn or sealed any more. -/
theorem after_bind (a : Action α) (f : α → Action β) (l : Ledger) :
    (a >>= f).after l = match a.result l with
      | .ok v => (f v).after (a.after l)
      | .error _ => a.after l := by
  unfold after result
  rw [EStateM.run_bind]
  cases a.run l <;> rfl

theorem after_ofExcept (v : Except EnclaveError α) (l : Ledger) : (ofExcept v).after l = l := by
  cases v <;> rfl

theorem after_map (g : α → β) (a : Action α) (l : Ledger) : (g <$> a).after l = a.after l := by
  rw [map_eq_pure_bind, after_bind]
  cases a.result l <;> rfl

theorem result_map (g : α → β) (a : Action α) (l : Ledger) :
    (g <$> a).result l = g <$> a.result l := by
  unfold result
  rw [map_eq_pure_bind, EStateM.run_bind]
  cases a.run l <;> rfl

/-- Whether a step draws nothing, and adds only seals of a certain kind. -/
def OnlySeals (P : SealCall → Prop) (a : Action α) : Prop :=
  ∀ l, (a.after l).drawn = l.drawn ∧ ∀ c ∈ (a.after l).calls, c ∈ l.calls ∨ P c

theorem onlySeals_ofExcept (v : Except EnclaveError α) : OnlySeals P (ofExcept v) := by
  intro l
  rw [after_ofExcept]
  exact ⟨rfl, fun c hc => .inl hc⟩

theorem OnlySeals.mono {Q : SealCall → Prop} {a : Action α} (h : OnlySeals P a)
    (hPQ : ∀ c, P c → Q c) : OnlySeals Q a :=
  fun l => ⟨(h l).1, fun c hc => ((h l).2 c hc).imp_right (hPQ c)⟩

theorem OnlySeals.bind {a : Action α} {f : α → Action β} (ha : OnlySeals P a)
    (hf : ∀ v, OnlySeals P (f v)) : OnlySeals P (a >>= f) := by
  intro l
  obtain ⟨hdrawn, hcalls⟩ := ha l
  rw [after_bind]
  cases a.result l with
  | error e => exact ⟨hdrawn, hcalls⟩
  | ok v =>
    obtain ⟨hdrawn', hcalls'⟩ := hf v (a.after l)
    refine ⟨hdrawn'.trans hdrawn, fun c hc => ?_⟩
    rcases hcalls' c hc with h | h
    · exact hcalls c h
    · exact .inr h

/-- A step that depends on what one that neither draws nor seals comes to. -/
theorem onlySeals_ofExcept_bind {v : Except EnclaveError α} {f : α → Action β}
    (hf : ∀ a, v = .ok a → OnlySeals P (f a)) : OnlySeals P (ofExcept v >>= f) := by
  cases v with
  | error e => exact onlySeals_ofExcept (.error e)
  | ok a => exact hf a rfl

theorem onlySeals_mapM {f : α → Action β} : ∀ {as : List α}, (∀ a ∈ as, OnlySeals P (f a)) →
    OnlySeals P (as.mapM f)
  | [], _ => onlySeals_ofExcept (.ok [])
  | a :: as, h => by
    rw [List.mapM_cons]
    have hrest := onlySeals_mapM fun b hb => h b (List.mem_cons_of_mem a hb)
    exact (h a List.mem_cons_self).bind fun b => hrest.bind fun bs => onlySeals_ofExcept (.ok _)

end Action

namespace Enclave

open SealedTx.Action

variable {x : Enclave} {s : PublicKey} {rs : List PublicKey}

/-! ## Boxes -/

/-- Whether a seal is one of a master key, for one of some recipients. -/
structure IsBoxSeal (x : Enclave) (key : SymmetricKey) (s : PublicKey) (n : Nonce)
    (rs : List PublicKey) (c : SealCall) : Prop where
  plain_eq : c.plain = key.bytes
  nonce_eq : c.nonce = n
  shared : ∃ r ∈ rs, x.sharedKey s r = .ok c.key

theorem onlySeals_sealBytes (x : Enclave) (plain : Bytes) (n : Nonce) (k : SymmetricKey) :
    OnlySeals (· = ⟨plain, n, k⟩) (x.sealBytes plain n k) := by
  intro l
  have hafter : (x.sealBytes plain n k).after l =
      { l with calls := ⟨plain, n, k⟩ :: l.calls } := after_ofExcept _ _
  rw [hafter]
  exact ⟨rfl, fun c hc => (List.mem_cons.1 hc).symm⟩

theorem onlySeals_sealFor {pk : PrivateKey} (hpk : x.keys.privateKey s = .ok pk)
    (key : SymmetricKey) (n : Nonce) {r : PublicKey} (hr : r ∈ rs) :
    OnlySeals (x.IsBoxSeal key s n rs) (x.sealFor key pk n r) := by
  refine onlySeals_ofExcept_bind fun shared hshared => ?_
  refine OnlySeals.bind ?_ fun b => onlySeals_ofExcept (.ok _)
  refine (onlySeals_sealBytes x key.bytes n shared).mono ?_
  rintro c rfl
  refine ⟨rfl, rfl, r, hr, ?_⟩
  rw [sharedKey, hpk]
  exact hshared

theorem onlySeals_sealForAll (x : Enclave) (key : SymmetricKey) (s : PublicKey) (n : Nonce)
    (rs : List PublicKey) :
    OnlySeals (x.IsBoxSeal key s n rs) (x.sealForAll key s n rs) :=
  onlySeals_ofExcept_bind fun _ hpk => onlySeals_mapM fun _ hr => onlySeals_sealFor hpk key n hr

/-! ## The operations -/

/-- **An encryption** draws three times, be it that it fails. It seals its message under the first
two draws, and boxes under the third. -/
theorem encrypt_after (x : Enclave) (m : Bytes) (s : PublicKey) (rs : List PublicKey)
    (md : Metadata) (l : Ledger) :
    ((x.encrypt m s rs md).after l).drawn = l.drawn + 3 ∧
      ∀ c ∈ ((x.encrypt m s rs md).after l).calls, c ∈ l.calls ∨
        (c = ⟨m, x.draws.nonce (l.drawn + 1), x.draws.masterKey l.drawn⟩ ∨
          x.IsBoxSeal (x.draws.masterKey l.drawn) s (x.draws.nonce (l.drawn + 2)) rs c) := by
  refine OnlySeals.bind ((onlySeals_sealBytes x m _ _).mono fun _ => .inl) (fun c => ?_)
    { l with drawn := l.drawn + 3 }
  refine OnlySeals.bind ((onlySeals_sealForAll x _ s _ rs).mono fun _ => .inr) fun boxes => ?_
  exact onlySeals_ofExcept _

/-- **Staging** draws twice if there is a private key for the sender. It seals its message under
the two draws, and one box under the second. -/
theorem encryptRaw_after {pk : PrivateKey} (hpk : x.keys.privateKey s = .ok pk) (m : Bytes)
    (l : Ledger) :
    ((x.encryptRaw m s).after l).drawn = l.drawn + 2 ∧
      ∀ c ∈ ((x.encryptRaw m s).after l).calls, c ∈ l.calls ∨
        (c = ⟨m, x.draws.nonce (l.drawn + 1), x.draws.masterKey l.drawn⟩ ∨
          x.IsBoxSeal (x.draws.masterKey l.drawn) s (x.draws.nonce (l.drawn + 1)) [s] c) := by
  rw [encryptRaw, hpk]
  refine OnlySeals.bind ((onlySeals_sealBytes x m _ _).mono fun _ => .inl) (fun c => ?_)
    { l with drawn := l.drawn + 2 }
  refine onlySeals_ofExcept_bind fun shared hshared => ?_
  refine OnlySeals.bind ?_ fun b => onlySeals_ofExcept (.ok _)
  refine (onlySeals_sealBytes x _ _ shared).mono ?_
  rintro c rfl
  refine .inr ⟨rfl, rfl, s, List.mem_singleton.2 rfl, ?_⟩
  rw [sharedKey, hpk]
  exact hshared

theorem encryptRaw_after_of_error {e : EnclaveError} (hpk : x.keys.privateKey s = .error e)
    (m : Bytes) (l : Ledger) : (x.encryptRaw m s).after l = l := by
  rw [encryptRaw, hpk]
  rfl

/-- **Addressing a staged message** draws once if its master key is found. It seals boxes of that
key under what it draws. -/
theorem encryptFromRaw_after {raw : RawTransaction} {key : SymmetricKey}
    (hkey : x.rawMasterKey raw = .ok key) (rs : List PublicKey) (md : Metadata) (l : Ledger) :
    ((x.encryptFromRaw raw rs md).after l).drawn = l.drawn + 1 ∧
      ∀ c ∈ ((x.encryptFromRaw raw rs md).after l).calls, c ∈ l.calls ∨
        x.IsBoxSeal key raw.sender (x.draws.nonce l.drawn) rs c := by
  rw [encryptFromRaw, hkey]
  exact OnlySeals.bind (onlySeals_sealForAll x key raw.sender _ rs)
    (fun boxes => onlySeals_ofExcept _) { l with drawn := l.drawn + 1 }

theorem encryptFromRaw_after_of_error {raw : RawTransaction} {e : EnclaveError}
    (hkey : x.rawMasterKey raw = .error e) (rs : List PublicKey) (md : Metadata) (l : Ledger) :
    (x.encryptFromRaw raw rs md).after l = l := by
  rw [encryptFromRaw, hkey]
  rfl

/-- The master key of a payload, as its sender takes it from the first box. -/
def openFirst (x : Enclave) (p : Payload) : Except EnclaveError SymmetricKey :=
  match p.recipients, p.boxes with
  | first :: _, box :: _ => x.openMasterKey box.bytes p.recipientNonce first p.sender
  | _, _ => .error (.missingRecipientData "No key or recipient-box to use")

/-- **A box for one more recipient** draws nothing. It is sealed under the nonce of the other boxes,
and holds what the first of them does. -/
theorem newBox_after (x : Enclave) (p : Payload) (r : PublicKey) (l : Ledger) :
    ((x.newBox p r).after l).drawn = l.drawn ∧
      ∀ c ∈ ((x.newBox p r).after l).calls, c ∈ l.calls ∨
        ∃ key, x.openFirst p = .ok key ∧ x.IsBoxSeal key p.sender p.recipientNonce [r] c := by
  unfold newBox openFirst
  cases p.recipients with
  | nil => exact onlySeals_ofExcept (.error _) l
  | cons first rest =>
    cases p.boxes with
    | nil => exact onlySeals_ofExcept (.error _) l
    | cons box boxes =>
      refine onlySeals_ofExcept_bind (fun key hkey => ?_) l
      refine onlySeals_ofExcept_bind fun pk hpk => ?_
      refine (onlySeals_sealFor hpk key _ (List.mem_singleton.2 rfl)).mono fun c hc => ?_
      exact ⟨key, hkey, hc⟩

end Enclave

end SealedTx
