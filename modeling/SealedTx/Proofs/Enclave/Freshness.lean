import SealedTx.Proofs.Enclave.Delivery
import SealedTx.Proofs.Enclave.Run

/-!
# No nonce serves a key twice

Two seals under one key and one nonce give away how their contents differ. In no run of an enclave
are there two, unless they seal the same (`Run.seals_same`): a box that is made again comes out as
it was.

A master key seals one message, that of the turn that drew it. Shared keys seal many boxes, some of
them in later turns, but only under nonces drawn for boxes. Such a nonce goes with one master key,
so boxes under it hold the same, whomever they are for. All that is assumed is that draws are fresh
(`Fresh`) and that the cipher opens what it sealed.
-/

namespace SealedTx.Enclave

open Outcome

/-- Whether what was drawn in a run is fresh: nonces are as long as the cipher takes them, no two
are the same, no two master keys are, and no master key is one that the sender of a request shares
with one of its recipients. -/
structure Fresh (x : Enclave) (ts : List Turn) : Prop where
  nonce_length : ∀ t ∈ ts, ∀ {i}, t.DrawsNonce x i →
    (x.draws.nonce i).bytes.length = nonceSize
  nonce_inj : ∀ t ∈ ts, ∀ u ∈ ts, ∀ {i j}, t.DrawsNonce x i → u.DrawsNonce x j →
    x.draws.nonce i = x.draws.nonce j → i = j
  masterKey_inj : ∀ t ∈ ts, ∀ u ∈ ts, ∀ {i j}, t.DrawsKey x i → u.DrawsKey x j →
    x.draws.masterKey i = x.draws.masterKey j → i = j
  masterKey_ne : ∀ t ∈ ts, ∀ u ∈ ts, ∀ {i}, t.DrawsKey x i → ∀ r ∈ u.request.recipients,
    x.sharedKey u.request.sender r ≠ .ok (x.draws.masterKey i)

variable {x : Enclave} {ts : List Turn} {l : Ledger} {n : Nonce} {key key' : SymmetricKey}

/-- Taking the master key from the first box gives the one that the boxes hold. -/
theorem Boxed.eq_of_openFirst {p : Payload} (hopens : x.encryptor.OpenedBy x.encryptor)
    (hn : p.recipientNonce.bytes.length = nonceSize) (h : x.Boxed key p)
    (hopen : x.openFirst p = .ok key') : key' = key := by
  unfold openFirst at hopen
  cases hr : p.recipients with
  | nil =>
    rw [hr] at hopen
    exact nomatch hopen
  | cons first rest =>
    cases hb : p.boxes with
    | nil =>
      rw [hr, hb] at hopen
      exact nomatch hopen
    | cons box boxes =>
      obtain ⟨first', rest', hr', hkey⟩ := h.openMasterKey_first hopens hn hb
      cases hr.symm.trans hr'
      rw [hr, hb] at hopen
      exact Except.ok.inj (hopen.symm.trans hkey)

/-- The nonce of a box was drawn for boxes of the same master key, be it in an earlier turn. -/
theorem Run.exists_drawsFor (h : x.Run ts l) (hopens : x.encryptor.OpenedBy x.encryptor)
    (hfresh : x.Fresh ts) {t : Turn} (ht : t ∈ ts) (hboxes : t.Boxes x n key) :
    ∃ u ∈ ts, u.DrawsFor x n key := by
  rcases hboxes with hdraws | ⟨p, r, hq, rfl, hopen⟩
  · exact ⟨t, ht, hdraws⟩
  · obtain ⟨u, hu, key', ⟨⟨j, hj, hn⟩, hkey⟩, hboxed⟩ := (h.atHand ht hq).boxed
    have hlength : p.recipientNonce.bytes.length = nonceSize := by
      rw [hn]
      exact hfresh.nonce_length u hu hj
    rw [hboxed.eq_of_openFirst hopens hlength hopen]
    exact ⟨u, hu, ⟨j, hj, hn⟩, hkey⟩

/-- **A nonce that was drawn for boxes** goes with one master key. -/
theorem Run.eq_of_drawsFor (h : x.Run ts l) (hfresh : x.Fresh ts) {t u : Turn} (ht : t ∈ ts)
    (hu : u ∈ ts) (hkey : t.DrawsFor x n key) (hkey' : u.DrawsFor x n key') : key = key' := by
  obtain ⟨⟨i, hi, hni⟩, hkey⟩ := hkey
  obtain ⟨⟨j, hj, hnj⟩, hkey'⟩ := hkey'
  obtain rfl : i = j := hfresh.nonce_inj t ht u hu hi hj (hni.symm.trans hnj)
  obtain rfl : t = u := h.eq_of_draws ht hu hi.1 hj.1
  exact Except.ok.inj (hkey.symm.trans hkey')

/-- **A master key that was drawn** seals one message. -/
theorem Run.plain_eq_of_sealsMessage (h : x.Run ts l) (hfresh : x.Fresh ts) {t u : Turn}
    (ht : t ∈ ts) (hu : u ∈ ts) {a b : SealCall} (ha : t.SealsMessage x a)
    (hb : u.SealsMessage x b) (hkey : a.key = b.key) : a.plain = b.plain := by
  have hdraw : t.before.drawn = u.before.drawn := by
    refine hfresh.masterKey_inj t ht u hu ha.drawn hb.drawn ?_
    rw [← ha.key, ← hb.key, hkey]
  have hdraws := hb.drawn.1
  rw [← hdraw] at hdraws
  obtain rfl : t = u := h.eq_of_draws ht hu ha.drawn.1 hdraws
  exact Option.some.inj (ha.message.symm.trans hb.message)

/-- No box is sealed under a master key. -/
theorem Fresh.key_ne (hfresh : x.Fresh ts) {t u : Turn} (ht : t ∈ ts) (hu : u ∈ ts)
    {a b : SealCall} (ha : t.SealsMessage x a) (hb : u.SealsBox x b) : a.key ≠ b.key := by
  obtain ⟨_, _, _, hbox⟩ := hb
  obtain ⟨r, hr, hshared⟩ := hbox.shared
  intro hkey
  rw [← hkey, ha.key] at hshared
  exact hfresh.masterKey_ne t ht u hu ha.drawn r hr hshared

/-- **No nonce serves a key twice**: in a run on fresh draws, seals under the same key and the same
nonce seal the same. -/
theorem Run.seals_same (h : x.Run ts l) (hopens : x.encryptor.OpenedBy x.encryptor)
    (hfresh : x.Fresh ts) {a b : SealCall} (ha : a ∈ l.calls) (hb : b ∈ l.calls)
    (hkey : a.key = b.key) (hnonce : a.nonce = b.nonce) : a.plain = b.plain := by
  obtain ⟨t, ht, ha⟩ := h.of_mem_calls ha
  obtain ⟨u, hu, hb⟩ := h.of_mem_calls hb
  rcases ha with ha | ha
  · rcases hb with hb | hb
    · exact h.plain_eq_of_sealsMessage hfresh ht hu ha hb hkey
    · exact absurd hkey (hfresh.key_ne ht hu ha hb)
  · rcases hb with hb | hb
    · exact absurd hkey.symm (hfresh.key_ne hu ht hb ha)
    · obtain ⟨na, ka, hboxes, hbox⟩ := ha
      obtain ⟨nb, kb, hboxes', hbox'⟩ := hb
      obtain ⟨v, hv, hdraws⟩ := h.exists_drawsFor hopens hfresh ht hboxes
      obtain ⟨w, hw, hdraws'⟩ := h.exists_drawsFor hopens hfresh hu hboxes'
      -- both boxes are under the nonce that a turn drew, so both hold that turn's master key
      rw [← hbox.nonce_eq, hnonce, hbox'.nonce_eq] at hdraws
      rw [hbox.plain_eq, hbox'.plain_eq, h.eq_of_drawsFor hfresh hv hw hdraws hdraws']

/-! ## A run to try it with -/

/-- Draws whose master keys are neither of two keys. -/
def avoidingDraws (a b : SymmetricKey) : Draws where
  masterKey n := ⟨(a.bytes.getD 0 0 + 1) :: (b.bytes.getD 1 0 + 1) :: countingBytes 0 30 n, by
    simp [countingBytes, keySize]⟩
  nonce n := ⟨countingBytes 0 nonceSize n⟩

theorem avoidingDraws_fit (a b : SymmetricKey) : (avoidingDraws a b).Fit := by
  intro n
  simp [avoidingDraws, countingBytes]

theorem masterKey_avoidingDraws_ne (a b : SymmetricKey) (n : Nat) :
    (avoidingDraws a b).masterKey n ≠ a ∧ (avoidingDraws a b).masterKey n ≠ b := by
  have hne : ∀ u : UInt8, u + 1 ≠ u := by
    intro u h
    have hbyte := congrArg UInt8.toNat h
    rw [UInt8.toNat_add] at hbyte
    simp at hbyte
    omega
  constructor
  · intro h
    have hbyte := congrArg (fun k => k.bytes.getD 0 0) h
    exact hne _ hbyte
  · intro h
    have hbyte := congrArg (fun k => k.bytes.getD 1 0) h
    exact hne _ hbyte

/-- The first 256 draws of counting bytes are told apart by their first byte. -/
theorem countingBytes_inj {seed size i j : Nat} (hi : i < 256) (hj : j < 256)
    (h : countingBytes seed (size + 1) i = countingBytes seed (size + 1) j) : i = j := by
  unfold countingBytes at h
  rw [List.range_succ_eq_map, List.map_cons, List.map_cons] at h
  have hbyte := congrArg UInt8.toNat (List.cons.inj h).1
  simp only [UInt8.toNat_ofNat'] at hbyte
  omega

/-- The sending node, with other draws. -/
def drawingNode (d : Draws) : Enclave := { nodeEnclave senderPair with draws := d }

/-- Short runs of the sending node, for itself and the receiving one, are on fresh draws. -/
theorem fresh_drawingNode {a b : SymmetricKey}
    (ha : (nodeEnclave senderPair).sharedKey senderPair.publicKey senderPair.publicKey = .ok a)
    (hb : (nodeEnclave senderPair).sharedKey senderPair.publicKey receiverPair.publicKey = .ok b)
    {ts : List Turn}
    (hdrawn : ∀ t ∈ ts, (t.after (drawingNode (avoidingDraws a b))).drawn ≤ 256)
    (hrs : ∀ t ∈ ts, ∀ r ∈ t.request.recipients,
      r = senderPair.publicKey ∨ r = receiverPair.publicKey) :
    (drawingNode (avoidingDraws a b)).Fresh ts := by
  have hlt : ∀ t ∈ ts, ∀ {i}, t.Draws (drawingNode (avoidingDraws a b)) i → i < 256 :=
    fun t ht i hi => Nat.lt_of_lt_of_le hi.2 (hdrawn t ht)
  constructor
  case nonce_length => exact fun t _ i _ => avoidingDraws_fit a b i
  case nonce_inj =>
    intro t ht u hu i j hi hj h
    have hbytes : countingBytes 0 nonceSize i = countingBytes 0 nonceSize j :=
      congrArg Blob.bytes h
    exact countingBytes_inj (hlt t ht hi.1) (hlt u hu hj.1) hbytes
  case masterKey_inj =>
    intro t ht u hu i j hi hj h
    have hbytes : countingBytes 0 30 i = countingBytes 0 30 j :=
      congrArg (fun k => k.bytes.drop 2) h
    exact countingBytes_inj (hlt t ht hi.1) (hlt u hu hj.1) hbytes
  case masterKey_ne =>
    intro t _ u hu i _ r hr h
    obtain ⟨hnea, hneb⟩ := masterKey_avoidingDraws_ne a b i
    have hs : u.request.sender = senderPair.publicKey :=
      isManaged_nodeEnclave_iff.1 (isManaged_of_sharedKey h)
    rw [hs] at h
    rcases hrs u hu r hr with rfl | rfl
    · exact hnea (Except.ok.inj (h.symm.trans ha))
    · exact hneb (Except.ok.inj (h.symm.trans hb))

/-- What is asked of an enclave in a run with an encryption for two places of one recipient, one for
a sender that is not its own, a message staged and addressed, and a box made again from a view. -/
def trialRequests (s r : PublicKey) (raw : RawTransaction) (v : Payload) : List Request :=
  [.newBox v r, .encryptFromRaw raw [s, r] plainMetadata, .encryptRaw [4] s,
    .encrypt [3] r [s] plainMetadata, .encrypt [1, 2] s [r, r] plainMetadata]

/-- An enclave of the sender serves these requests. -/
theorem exists_trialRun {s r : PublicKey} (hseals : x.encryptor.Seals) (hfit : x.draws.Fit)
    (hs : x.keys.isManaged s = true) (hself : ∃ shared, x.sharedKey s s = .ok shared)
    (hshared : ∃ shared, x.sharedKey s r = .ok shared) :
    ∃ raw v ts l, x.Run ts l ∧ ts.map (·.request) = trialRequests s r raw v ∧
      l.drawn ≤ 256 := by
  obtain ⟨p, hp⟩ : ∃ p, (x.encrypt [1, 2] s [r, r] plainMetadata).result {} = .ok p := by
    refine exists_encrypt hseals hfit hs (fun r' hr => ?_) (fun e he => by cases he) _ _
    obtain rfl : r' = r := by simpa using hr
    exact hshared
  obtain ⟨v, hv⟩ : ∃ v, p.forRecipient r = .ok v := by
    obtain ⟨_, _, hrecipients, hlength⟩ := sealed_of_encrypt hfit hp
    exact Payload.exists_forRecipient (by simp [hrecipients]) (by rw [hlength, hrecipients])
  let t₁ : Turn := ⟨.encrypt [1, 2] s [r, r] plainMetadata, {}⟩
  let t₂ : Turn := ⟨.encrypt [3] r [s] plainMetadata, t₁.after x⟩
  let t₃ : Turn := ⟨.encryptRaw [4] s, t₂.after x⟩
  obtain ⟨raw, hraw⟩ := exists_encryptRaw hseals hfit hs hself [4] t₃.before
  let t₄ : Turn := ⟨.encryptFromRaw raw [s, r] plainMetadata, t₃.after x⟩
  let t₅ : Turn := ⟨.newBox v r, t₄.after x⟩
  have hanswer : t₁.answer x = .ok (.payload p) :=
    (Action.result_map _ _ _).trans (map_eq_ok_iff.2 ⟨p, hp, rfl⟩)
  have hhand : x.AtHand [t₄, t₃, t₂, t₁] v := .view (.made (t := t₁) (by simp) hanswer) hv
  have hrun : x.Run [t₄, t₃, t₂, t₁] (t₄.after x) :=
    ((((Run.start 0).turn t₁.request trivial).turn t₂.request trivial).turn t₃.request
      trivial).turn t₄.request trivial
  refine ⟨raw, v, [t₅, t₄, t₃, t₂, t₁], t₅.after x, hrun.turn t₅.request hhand, rfl, ?_⟩
  · have h₁ := (t₁.drawn_after x).2
    have h₂ := (t₂.drawn_after x).2
    have h₃ := (t₃.drawn_after x).2
    have h₄ := (t₄.drawn_after x).2
    have h₅ := (t₅.drawn_after x).2
    simp only [t₁, t₂, t₃, t₄, t₅] at h₁ h₂ h₃ h₄ h₅ ⊢
    omega

/-- A run of the sending node in which one request fails midway and one box is made twice. -/
theorem seals_same_node : ∃ (d : Draws) (raw : RawTransaction) (v : Payload) (ts : List Turn)
    (l : Ledger), (drawingNode d).Run ts l ∧
    ts.map (·.request) = trialRequests senderPair.publicKey receiverPair.publicKey raw v ∧
    ∀ a ∈ l.calls, ∀ b ∈ l.calls, a.key = b.key → a.nonce = b.nonce → a.plain = b.plain := by
  obtain ⟨a, ha⟩ := exists_sharedKey_senderPair (.inl rfl)
  obtain ⟨b, hb⟩ := exists_sharedKey_senderPair (.inr rfl)
  obtain ⟨raw, v, ts, l, hrun, hts, hdrawn⟩ :=
    exists_trialRun (x := drawingNode (avoidingDraws a b)) (seals_nodeEnclave senderPair)
      (avoidingDraws_fit a b) (isManaged_nodeEnclave_iff.2 rfl) ⟨a, ha⟩ ⟨b, hb⟩
  have hrs : ∀ t ∈ ts, ∀ r ∈ t.request.recipients,
      r = senderPair.publicKey ∨ r = receiverPair.publicKey := by
    intro t ht r hr
    have hq : t.request ∈ trialRequests senderPair.publicKey receiverPair.publicKey raw v := by
      rw [← hts]
      exact List.mem_map_of_mem ht
    simp only [trialRequests, List.mem_cons, List.not_mem_nil, or_false] at hq
    rcases hq with hq | hq | hq | hq | hq <;> rw [hq] at hr <;>
      simp only [Request.recipients, List.mem_cons, List.not_mem_nil, or_false] at hr
    · exact .inr hr
    · exact hr
    · exact .inl hr
    · exact .inl hr
    · exact .inr (hr.elim id id)
  have hfresh := fresh_drawingNode ha hb
    (fun t ht => Nat.le_trans (hrun.drawn_le ht) hdrawn) hrs
  refine ⟨avoidingDraws a b, raw, v, ts, l, hrun, hts, fun c hc c' hc' => ?_⟩
  exact hrun.seals_same (openedBy_nodeEnclave senderPair senderPair) hfresh hc hc'

end SealedTx.Enclave
