import SealedTx.Proofs.Enclave.Decrypt
import SealedTx.Proofs.Ledger

/-!
# Runs of an enclave

An enclave serves one request after the other, each on the ledger that the one before has left, be
it that it failed (`Run`). Whatever staged messages it is asked to address, it is asked for further
boxes only of payloads that it has made itself, or of views of them (`AtHand`).

Two facts hold of every run. A draw is made in one turn only (`Run.eq_of_draws`). And the boxes of a
payload at hand hold the master key of the turn that drew the nonce for them (`AtHand.boxed`).
-/

namespace SealedTx.Enclave

open SealedTx.Action Outcome

/-! ## Requests -/

/-- What an enclave is asked to seal. -/
inductive Request where
  | encrypt (message : Bytes) (sender : PublicKey) (recipients : List PublicKey) (md : Metadata)
  | encryptRaw (message : Bytes) (sender : PublicKey)
  | encryptFromRaw (raw : RawTransaction) (recipients : List PublicKey) (md : Metadata)
  | newBox (p : Payload) (recipient : PublicKey)

/-- What an enclave has made of a request. -/
inductive Answer where
  | payload (p : Payload)
  | raw (raw : RawTransaction)
  | box (box : RecipientBox)

/-- Serves a request. -/
def serve (x : Enclave) : Request → Action Answer
  | .encrypt m s rs md => .payload <$> x.encrypt m s rs md
  | .encryptRaw m s => .raw <$> x.encryptRaw m s
  | .encryptFromRaw raw rs md => .payload <$> x.encryptFromRaw raw rs md
  | .newBox p r => .box <$> x.newBox p r

namespace Request

/-- The message that comes with a request and is to be sealed. -/
def message : Request → Option Bytes
  | .encrypt m _ _ _ | .encryptRaw m _ => some m
  | .encryptFromRaw _ _ _ | .newBox _ _ => none

/-- Whose shared keys boxes are sealed under. -/
def sender : Request → PublicKey
  | .encrypt _ s _ _ | .encryptRaw _ s => s
  | .encryptFromRaw raw _ _ => raw.sender
  | .newBox p _ => p.sender

/-- Whom boxes are sealed for. A staged message has a box for its sender. -/
def recipients : Request → List PublicKey
  | .encrypt _ _ rs _ | .encryptFromRaw _ rs _ => rs
  | .encryptRaw _ s => [s]
  | .newBox _ r => [r]

end Request

/-! ## Turns -/

/-- A request with the ledger that it is served on. -/
structure Turn where
  request : Request
  before : Ledger

namespace Turn

variable {x : Enclave} {t : Turn} {c : SealCall}

/-- What comes of a turn. -/
def answer (x : Enclave) (t : Turn) : Except EnclaveError Answer :=
  (x.serve t.request).result t.before

/-- The ledger that a turn leaves. -/
def after (x : Enclave) (t : Turn) : Ledger := (x.serve t.request).after t.before

/-- Whether a draw is made in a turn. -/
def Draws (x : Enclave) (t : Turn) (i : Nat) : Prop :=
  t.before.drawn ≤ i ∧ i < (t.after x).drawn

/-- Whether a draw of a turn is that of a master key: the first one is, if a message is sealed. -/
def DrawsKey (x : Enclave) (t : Turn) (i : Nat) : Prop :=
  t.Draws x i ∧ t.request.message.isSome ∧ i = t.before.drawn

/-- Whether a draw of a turn is that of a nonce. -/
def DrawsNonce (x : Enclave) (t : Turn) (i : Nat) : Prop := t.Draws x i ∧ ¬t.DrawsKey x i

/-- The master key that the boxes of a turn hold. -/
def boxedKey (x : Enclave) (t : Turn) : Except EnclaveError SymmetricKey :=
  match t.request with
  | .encrypt _ _ _ _ | .encryptRaw _ _ => .ok (x.draws.masterKey t.before.drawn)
  | .encryptFromRaw raw _ _ => x.rawMasterKey raw
  | .newBox p _ => x.openFirst p

/-- Whether a turn drew a nonce for boxes of a master key. -/
def DrawsFor (x : Enclave) (t : Turn) (n : Nonce) (key : SymmetricKey) : Prop :=
  (∃ j, t.DrawsNonce x j ∧ n = x.draws.nonce j) ∧ t.boxedKey x = .ok key

/-- Whether boxes of a turn hold a master key under a nonce. Those that are made later are under
the nonce of the payload that they are for. -/
def Boxes (x : Enclave) (t : Turn) (n : Nonce) (key : SymmetricKey) : Prop :=
  t.DrawsFor x n key ∨
    ∃ p r, t.request = .newBox p r ∧ n = p.recipientNonce ∧ x.openFirst p = .ok key

/-- Whether a seal is that of the message of a turn, under the master key that it drew. -/
structure SealsMessage (x : Enclave) (t : Turn) (c : SealCall) : Prop where
  drawn : t.DrawsKey x t.before.drawn
  message : t.request.message = some c.plain
  key : c.key = x.draws.masterKey t.before.drawn

/-- Whether a seal is that of a box of a turn. -/
def SealsBox (x : Enclave) (t : Turn) (c : SealCall) : Prop :=
  ∃ n key, t.Boxes x n key ∧ x.IsBoxSeal key t.request.sender n t.request.recipients c

section After

variable (x : Enclave) (m : Bytes) (s r : PublicKey) (rs : List PublicKey) (md : Metadata)
  (raw : RawTransaction) (p : Payload) (l : Ledger)

@[simp] theorem after_encrypt :
    after x ⟨.encrypt m s rs md, l⟩ = (x.encrypt m s rs md).after l := after_map _ _ l

@[simp] theorem after_encryptRaw :
    after x ⟨.encryptRaw m s, l⟩ = (x.encryptRaw m s).after l := after_map _ _ l

@[simp] theorem after_encryptFromRaw :
    after x ⟨.encryptFromRaw raw rs md, l⟩ = (x.encryptFromRaw raw rs md).after l :=
  after_map _ _ l

@[simp] theorem after_newBox : after x ⟨.newBox p r, l⟩ = (x.newBox p r).after l :=
  after_map _ _ l

end After

/-- A turn makes three draws at most. -/
theorem drawn_after (x : Enclave) (t : Turn) :
    t.before.drawn ≤ (t.after x).drawn ∧ (t.after x).drawn ≤ t.before.drawn + 3 := by
  obtain ⟨q, l⟩ := t
  cases q with
  | encrypt m s rs md =>
    have h := (encrypt_after x m s rs md l).1
    simp [h]
  | encryptRaw m s =>
    cases hpk : x.keys.privateKey s with
    | error e => simp [encryptRaw_after_of_error hpk]
    | ok pk =>
      have h := (encryptRaw_after hpk m l).1
      simp [h]
  | encryptFromRaw raw rs md =>
    cases hkey : x.rawMasterKey raw with
    | error e => simp [encryptFromRaw_after_of_error hkey]
    | ok key =>
      have h := (encryptFromRaw_after hkey rs md l).1
      simp [h]
  | newBox p r =>
    have h := (newBox_after x p r l).1
    simp [h]

theorem drawsKey_of_message {m : Bytes} (hm : t.request.message = some m)
    (hi : t.before.drawn < (t.after x).drawn) : t.DrawsKey x t.before.drawn :=
  ⟨⟨Nat.le_refl _, hi⟩, by rw [hm]; rfl, rfl⟩

/-- Any draw but the first is that of a nonce. -/
theorem drawsNonce_of_lt {i : Nat} (h : t.before.drawn < i) (hi : i < (t.after x).drawn) :
    t.DrawsNonce x i :=
  ⟨⟨Nat.le_of_lt h, hi⟩, fun hkey => Nat.ne_of_gt h hkey.2.2⟩

/-- The first draw is that of a nonce if no message is sealed. -/
theorem drawsNonce_of_message (hm : t.request.message = none)
    (hi : t.before.drawn < (t.after x).drawn) : t.DrawsNonce x t.before.drawn := by
  refine ⟨⟨Nat.le_refl _, hi⟩, fun hkey => ?_⟩
  have hsome := hkey.2.1
  rw [hm] at hsome
  exact nomatch hsome

theorem drawsFor_encrypt (x : Enclave) (m : Bytes) (s : PublicKey) (rs : List PublicKey)
    (md : Metadata) (l : Ledger) : DrawsFor x ⟨.encrypt m s rs md, l⟩
      (x.draws.nonce (l.drawn + 2)) (x.draws.masterKey l.drawn) := by
  refine ⟨⟨l.drawn + 2, drawsNonce_of_lt (by simp) ?_, rfl⟩, rfl⟩
  simp [(encrypt_after x m s rs md l).1]

theorem drawsFor_encryptFromRaw {raw : RawTransaction} {key : SymmetricKey}
    (hkey : x.rawMasterKey raw = .ok key) (rs : List PublicKey) (md : Metadata) (l : Ledger) :
    DrawsFor x ⟨.encryptFromRaw raw rs md, l⟩ (x.draws.nonce l.drawn) key := by
  refine ⟨⟨l.drawn, drawsNonce_of_message rfl ?_, rfl⟩, hkey⟩
  simp [(encryptFromRaw_after hkey rs md l).1]

/-- **What a turn seals** is its message or a box. -/
theorem calls_after (hc : c ∈ (t.after x).calls) :
    c ∈ t.before.calls ∨ t.SealsMessage x c ∨ t.SealsBox x c := by
  obtain ⟨q, l⟩ := t
  cases q with
  | encrypt m s rs md =>
    obtain ⟨hdrawn, hcalls⟩ := encrypt_after x m s rs md l
    rw [after_encrypt] at hc
    rcases hcalls c hc with h | rfl | h
    · exact .inl h
    · exact .inr (.inl ⟨drawsKey_of_message rfl (by simp [hdrawn]), rfl, rfl⟩)
    · exact .inr (.inr ⟨_, _, .inl (drawsFor_encrypt x m s rs md l), h⟩)
  | encryptRaw m s =>
    rw [after_encryptRaw] at hc
    cases hpk : x.keys.privateKey s with
    | error e =>
      rw [encryptRaw_after_of_error hpk] at hc
      exact .inl hc
    | ok pk =>
      obtain ⟨hdrawn, hcalls⟩ := encryptRaw_after hpk m l
      rcases hcalls c hc with h | rfl | h
      · exact .inl h
      · exact .inr (.inl ⟨drawsKey_of_message rfl (by simp [hdrawn]), rfl, rfl⟩)
      -- the box of the sender is under the nonce of the message
      · have hnonce : DrawsNonce x ⟨.encryptRaw m s, l⟩ (l.drawn + 1) :=
          drawsNonce_of_lt (by simp) (by simp [hdrawn])
        exact .inr (.inr ⟨_, _, .inl ⟨⟨_, hnonce, rfl⟩, rfl⟩, h⟩)
  | encryptFromRaw raw rs md =>
    rw [after_encryptFromRaw] at hc
    cases hkey : x.rawMasterKey raw with
    | error e =>
      rw [encryptFromRaw_after_of_error hkey] at hc
      exact .inl hc
    | ok key =>
      rcases (encryptFromRaw_after hkey rs md l).2 c hc with h | h
      · exact .inl h
      · exact .inr (.inr ⟨_, _, .inl (drawsFor_encryptFromRaw hkey rs md l), h⟩)
  | newBox p r =>
    rw [after_newBox] at hc
    rcases (newBox_after x p r l).2 c hc with h | ⟨key, hkey, h⟩
    · exact .inl h
    · exact .inr (.inr ⟨_, _, .inr ⟨p, r, rfl, rfl, hkey⟩, h⟩)

/-- **A payload that a turn has made** has boxes of one master key, under a nonce that the turn
drew for them. -/
theorem boxed_of_answer {p : Payload} (h : t.answer x = .ok (.payload p)) :
    ∃ key, t.DrawsFor x p.recipientNonce key ∧ x.Boxed key p := by
  obtain ⟨q, l⟩ := t
  unfold answer serve at h
  cases q with
  | encrypt m s rs md =>
    rw [result_map] at h
    obtain ⟨_, h, hp⟩ := map_eq_ok_iff.1 h
    cases hp
    rw [result_encrypt] at h
    obtain ⟨c, _, h⟩ := bind_eq_ok_iff.1 h
    obtain ⟨hboxed, hnonce⟩ := boxed_of_address h
    rw [hnonce]
    exact ⟨_, drawsFor_encrypt x m s rs md l, hboxed⟩
  | encryptFromRaw raw rs md =>
    rw [result_map] at h
    obtain ⟨_, h, hp⟩ := map_eq_ok_iff.1 h
    cases hp
    rw [result_encryptFromRaw] at h
    obtain ⟨key, hkey, h⟩ := bind_eq_ok_iff.1 h
    obtain ⟨hboxed, hnonce⟩ := boxed_of_address h
    rw [hnonce]
    exact ⟨key, drawsFor_encryptFromRaw hkey rs md l, hboxed⟩
  | encryptRaw m s | newBox p r =>
    rw [result_map] at h
    obtain ⟨_, _, hp⟩ := map_eq_ok_iff.1 h
    exact nomatch hp

end Turn

/-! ## Runs -/

/-- The payloads that were made in turns, and the views of them. -/
inductive AtHand (x : Enclave) (ts : List Turn) : Payload → Prop
  | made {t p} (ht : t ∈ ts) (h : t.answer x = .ok (.payload p)) : AtHand x ts p
  | view {p v r} (h : AtHand x ts p) (hv : p.forRecipient r = .ok v) : AtHand x ts v

/-- Whether a request, if it is for a further box, is for one of a payload at hand. -/
def Request.Grounded (x : Enclave) (ts : List Turn) : Request → Prop
  | .newBox p _ => x.AtHand ts p
  | .encrypt _ _ _ _ | .encryptRaw _ _ | .encryptFromRaw _ _ _ => True

/-- The turns of an enclave, the last one first, and the ledger that they leave. -/
inductive Run (x : Enclave) : List Turn → Ledger → Prop
  | start (n : Nat) : Run x [] { drawn := n }
  | turn {ts l} (q : Request) (h : Run x ts l) (hq : q.Grounded x ts) :
    Run x (⟨q, l⟩ :: ts) (Turn.after x ⟨q, l⟩)

section Run

variable {x : Enclave} {ts : List Turn} {l : Ledger}

theorem AtHand.mono {us : List Turn} {p : Payload} (h : x.AtHand ts p) (hts : ts ⊆ us) :
    x.AtHand us p := by
  induction h with
  | made ht h => exact .made (hts ht) h
  | view _ hv ih => exact ih.view hv

/-- **The boxes of a payload at hand** hold the master key of the turn that drew the nonce for
them. -/
theorem AtHand.boxed {p : Payload} (h : x.AtHand ts p) :
    ∃ t ∈ ts, ∃ key, t.DrawsFor x p.recipientNonce key ∧ x.Boxed key p := by
  induction h with
  | made ht h =>
    obtain ⟨key, hp⟩ := Turn.boxed_of_answer h
    exact ⟨_, ht, key, hp⟩
  | view _ hv ih =>
    obtain ⟨t, ht, key, hdraws, hboxed⟩ := ih
    have hboxed := hboxed.of_forRecipient hv
    obtain ⟨i, box, _, _, rfl⟩ := Payload.forRecipient_eq_ok_iff.1 hv
    exact ⟨t, ht, key, hdraws, hboxed⟩

/-- Further boxes are made of payloads at hand only. -/
theorem Run.atHand (h : x.Run ts l) {t : Turn} (ht : t ∈ ts) {p : Payload} {r : PublicKey}
    (hq : t.request = .newBox p r) : x.AtHand ts p := by
  induction h with
  | start n => exact nomatch ht
  | turn _ _ hgrounded ih =>
    rcases List.mem_cons.1 ht with rfl | ht
    · obtain rfl := hq
      exact AtHand.mono hgrounded (List.subset_cons_self _ _)
    · exact (ih ht).mono (List.subset_cons_self _ _)

/-- **Every seal of a run** is that of a message or of a box of one of its turns. -/
theorem Run.of_mem_calls (h : x.Run ts l) {c : SealCall} (hc : c ∈ l.calls) :
    ∃ t ∈ ts, t.SealsMessage x c ∨ t.SealsBox x c := by
  induction h with
  | start n => exact nomatch hc
  | turn _ _ _ ih =>
    rcases Turn.calls_after hc with h | h
    · obtain ⟨t, ht, h⟩ := ih h
      exact ⟨t, List.mem_cons_of_mem _ ht, h⟩
    · exact ⟨_, List.mem_cons_self, h⟩

/-- The draws of a run come before those that are still to be made. -/
theorem Run.drawn_le (h : x.Run ts l) {t : Turn} (ht : t ∈ ts) :
    (t.after x).drawn ≤ l.drawn := by
  induction h with
  | start n => exact nomatch ht
  | @turn ts l q _ _ ih =>
    rcases List.mem_cons.1 ht with rfl | ht
    · exact Nat.le_refl _
    · exact Nat.le_trans (ih ht) (Turn.drawn_after x ⟨q, l⟩).1

/-- **A draw is made in one turn only.** -/
theorem Run.eq_of_draws (h : x.Run ts l) {t u : Turn} (ht : t ∈ ts) (hu : u ∈ ts) {i : Nat}
    (hti : t.Draws x i) (hui : u.Draws x i) : t = u := by
  induction h with
  | start n => exact nomatch ht
  | @turn ts l q hrun _ ih =>
    rcases List.mem_cons.1 ht with rfl | ht
    · rcases List.mem_cons.1 hu with rfl | hu
      · rfl
      · exact absurd (hrun.drawn_le hu) (Nat.not_le_of_lt (Nat.lt_of_le_of_lt hti.1 hui.2))
    · rcases List.mem_cons.1 hu with rfl | hu
      · exact absurd (hrun.drawn_le ht) (Nat.not_le_of_lt (Nat.lt_of_le_of_lt hui.1 hti.2))
      · exact ih ht hu

end Run

end SealedTx.Enclave
