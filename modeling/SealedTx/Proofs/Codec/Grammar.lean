import SealedTx.Codec.Legacy
import SealedTx.Proofs.Outcome
import SealedTx.Proofs.Payload
import SealedTx.Proofs.Sorted

/-!
# What the field format accepts

A byte string is a payload in the field format if it is a head; or a head and recipients; or a
head, recipients and the sections behind them (`Reads`). The sections are not marked: what stands
behind the affected transactions goes by the mode, and behind that whatever comes after a group id
is ignored. Still every byte string is read in one way at most, as the decoder reads it: it accepts
just these byte strings, with the parts that they are made of, and finds all others malformed
(`decode_iff`).

Reading alone accepts more. It takes an execution hash that is empty, or missing at the end, for one
that is not there; a mode that needs one then refuses it when the draft is built. So what stands in
the place of these two parts is told together with the promise of the mode (`run_readExecHash_iff`,
`run_readMandatory_iff`).
-/

namespace SealedTx.Codec.Legacy

open Fields

/-! ## The grammar -/

/-- The parts that every payload has. -/
structure Head where
  sender : PublicKey
  cipherText : Bytes
  nonce : Nonce
  boxes : List RecipientBox
  recipientNonce : Nonce

namespace Head

def bytes (h : Head) : Bytes :=
  field h.sender.bytes ++ field h.cipherText ++ field h.nonce.bytes ++
    array (h.boxes.map Blob.bytes) ++ field h.recipientNonce.bytes

/-- Whether all lengths can be written. -/
structure Fits (h : Head) : Prop where
  cipherText : h.cipherText.length < lengthLimit
  nonce : h.nonce.bytes.length < lengthLimit
  boxes : h.boxes.length < lengthLimit
  box : ∀ b ∈ h.boxes, b.bytes.length < lengthLimit
  recipientNonce : h.recipientNonce.bytes.length < lengthLimit

/-- The draft with these parts, and the others as they are by default. -/
def draft (h : Head) (recipients : List PublicKey) : Draft where
  sender := some h.sender
  cipherText := h.cipherText
  nonce := h.nonce
  boxes := h.boxes
  recipientNonce := h.recipientNonce
  recipients := recipients

end Head

/-- The parts behind the recipients. -/
structure Sections where
  /-- The mode is told by the first byte, the others are ignored. -/
  flag : Bytes
  affected : List (TxHash × SecurityHash)
  execHash : Bytes
  mandatory : List PublicKey
  /-- A group id with the bytes that stand behind it. -/
  tail : Option (GroupId × Bytes)

/-- A group id and what stands behind it. -/
def tailBytes : Option (GroupId × Bytes) → Bytes
  | none => []
  | some (g, ignored) => field g.bytes ++ ignored

namespace Sections

def mode (s : Sections) : PrivacyMode := .ofFlag (s.flag.headD 0)

/-- What the mode asks for, if it asks for anything. -/
def middle (s : Sections) : Bytes :=
  match s.mode with
  | .privateStateValidation => field s.execHash
  | .mandatoryRecipients => array (s.mandatory.map Key.bytes)
  | .standardPrivate | .partyProtection => []

def bytes (s : Sections) : Bytes :=
  field s.flag ++ count s.affected.length ++
    s.affected.flatMap (fun e => field e.1.bytes ++ field e.2.bytes) ++ s.middle ++
    tailBytes s.tail

/-- Whether all lengths can be written, and there is just what the mode asks for. -/
structure Fits (s : Sections) : Prop where
  flag : s.flag.length < lengthLimit
  affected : s.affected.length < lengthLimit
  entry : ∀ e ∈ s.affected, e.1.bytes.length < lengthLimit ∧ e.2.bytes.length < lengthLimit
  execHash : s.execHash.length < lengthLimit
  execHash_iff : s.execHash ≠ [] ↔ s.mode = .privateStateValidation
  mandatory : s.mandatory.length < lengthLimit
  mandatory_iff : s.mandatory ≠ [] ↔ s.mode = .mandatoryRecipients
  groupId : ∀ t ∈ s.tail, t.1.bytes.length < lengthLimit

/-- The draft with these parts too. An empty group id is none. -/
def draft (s : Sections) (d : Draft) : Draft :=
  { d with mode := s.mode, affected := .ofList s.affected, execHash := s.execHash,
           mandatory := .ofList s.mandatory, groupId := nonemptyGroupId (s.tail.map (·.1)) }

/-- Of the hashes of an affected transaction the last one counts. -/
theorem get?_affected_draft {s : Sections} {d : Draft} {tx : TxHash} {hash : SecurityHash} :
    (s.draft d).affected.get? tx = some hash ↔
      ∃ a b, s.affected = a ++ (tx, hash) :: b ∧ tx ∉ b.map (·.1) :=
  SortedMap.get?_ofList_eq_some_iff

theorem mem_mandatory_draft {s : Sections} {d : Draft} {k : PublicKey} :
    k ∈ SortedSet.toList (s.draft d).mandatory ↔ k ∈ s.mandatory :=
  SortedSet.mem_toList_ofList

end Sections

/-- **The byte strings of payloads**, each with the draft of the payload. -/
inductive Reads : Bytes → Draft → Prop
  | head {h : Head} (hh : h.Fits) : Reads h.bytes (h.draft [])
  | recipients {h : Head} {ks : List PublicKey} (hh : h.Fits) (hks : ks.length < lengthLimit) :
    Reads (h.bytes ++ array (ks.map Key.bytes)) (h.draft ks)
  | sections {h : Head} {ks : List PublicKey} {s : Sections} (hh : h.Fits)
    (hks : ks.length < lengthLimit) (hs : s.Fits) :
    Reads (h.bytes ++ array (ks.map Key.bytes) ++ s.bytes) (s.draft (h.draft ks))

/-- A head begins with the highest byte of the length of its sender's key. -/
theorem Head.bytes_eq_cons (h : Head) : ∃ b, h.bytes = 0 :: b := by
  have hcount : count h.sender.bytes.length = [0, 0, 0, 0, 0, 0, 0, 32] := by
    rw [h.sender.length_eq]
    decide
  rw [bytes, field, hcount]
  exact ⟨_, rfl⟩

theorem Reads.eq_cons {b : Bytes} {d : Draft} (h : Reads b d) : ∃ c, b = 0 :: c := by
  cases h with
  | head _ => exact Head.bytes_eq_cons _
  | recipients _ _ | sections _ _ _ =>
    obtain ⟨c, hc⟩ := Head.bytes_eq_cons _
    rw [hc]
    exact ⟨_, rfl⟩

/-! ## Parts -/

section Parts

variable {b rest : Bytes} {what : String}

theorem run_readKey_iff {v : Bytes} {k : PublicKey} :
    (readKey what v).run b = .ok k rest ↔ v = k.bytes ∧ rest = b := by
  rw [eq_comm (a := v), ← Key.ofBytes_eq_ok_iff, readKey]
  cases (Key.ofBytes v : Except ValueError PublicKey) with
  | ok k' => rw [run_pure_iff, Except.ok.injEq, eq_comm]
  | error e =>
    constructor
    · intro h
      cases h
    · rintro ⟨h, _⟩
      cases h

theorem decides_readKey (what : String) (v : Bytes) : (readKey what v).Decides := by
  unfold readKey
  split
  · exact Reader.decides_pure _
  · exact Reader.decides_throw _

theorem run_readKeys_iff : ∀ {vs : List Bytes} {ks : List PublicKey} {b : Bytes},
    EStateM.run (vs.mapM (readKey what)) b = .ok ks rest ↔ vs = ks.map Key.bytes ∧ rest = b
  | [], ks, b => by
    rw [List.mapM_nil, run_pure_iff, eq_comm (a := []), List.map_eq_nil_iff]
  | v :: vs, ks, b => by
    constructor
    · intro h
      rw [List.mapM_cons] at h
      obtain ⟨k, c, hk, hrest⟩ := run_bind_iff.1 h
      obtain ⟨ks, d, hks, hpure⟩ := run_bind_iff.1 hrest
      obtain ⟨rfl, rfl⟩ := run_pure_iff.1 hpure
      obtain ⟨rfl, rfl⟩ := run_readKey_iff.1 hk
      obtain ⟨rfl, rfl⟩ := run_readKeys_iff.1 hks
      exact ⟨rfl, rfl⟩
    · rintro ⟨hvs, rfl⟩
      cases ks with
      | nil => exact nomatch hvs
      | cons k ks =>
        obtain ⟨rfl, rfl⟩ := List.cons.inj hvs
        rw [List.mapM_cons]
        refine run_bind_iff.2 ⟨k, rest, run_readKey_iff.2 ⟨rfl, rfl⟩, ?_⟩
        exact run_bind_iff.2 ⟨ks, rest, run_readKeys_iff.2 ⟨rfl, rfl⟩, rfl⟩

/-- An array of keys is read off its bytes. -/
theorem run_keyArray_iff {what' : String} {ks : List PublicKey} :
    EStateM.run (do (← readArray what).mapM (readKey what')) b = .ok ks rest ↔
      ks.length < lengthLimit ∧ b = array (ks.map Key.bytes) ++ rest := by
  constructor
  · intro h
    obtain ⟨vs, c, hvs, hks⟩ := run_bind_iff.1 h
    obtain ⟨rfl, rfl⟩ := run_readKeys_iff.1 hks
    obtain ⟨hlen, _, rfl⟩ := run_readArray_iff.1 hvs
    rw [List.length_map] at hlen
    exact ⟨hlen, rfl⟩
  · rintro ⟨hlen, rfl⟩
    rw [← List.length_map] at hlen
    refine run_bind_iff.2 ⟨_, rest, run_readArray_iff.2 ⟨hlen, Key.length_lt_of_mem, rfl⟩, ?_⟩
    exact run_readKeys_iff.2 ⟨rfl, rfl⟩

theorem run_ifMore_iff {α : Type} {otherwise a : α} {r : Reader α} :
    (ifMore otherwise r).run b = .ok a rest ↔
      (b = [] ∧ a = otherwise ∧ rest = []) ∨ (b ≠ [] ∧ r.run b = .ok a rest) := by
  by_cases hb : b = []
  · subst hb
    have hrun : (ifMore otherwise r).run [] = (pure otherwise : Reader α).run [] := rfl
    rw [hrun, run_pure_iff]
    simp
  · rw [ifMore, run_hasMore_bind hb, if_pos rfl]
    simp [hb]

theorem decides_ifMore {α : Type} (otherwise : α) {r : Reader α} (hr : r.Decides) :
    (ifMore otherwise r).Decides := by
  intro b
  by_cases hb : b = []
  · subst hb
    exact .inl ⟨otherwise, [], rfl⟩
  · unfold Reader.Rejects
    rw [ifMore, run_hasMore_bind hb, if_pos rfl]
    exact hr b

theorem run_readAffected_iff : ∀ {n : Nat} {l : List (TxHash × SecurityHash)} {b : Bytes},
    (readAffected n).run b = .ok l rest ↔ l.length = n ∧
      (∀ e ∈ l, e.1.bytes.length < lengthLimit ∧ e.2.bytes.length < lengthLimit) ∧
        b = l.flatMap (fun e => field e.1.bytes ++ field e.2.bytes) ++ rest
  | 0, l, b => by
    rw [readAffected, run_pure_iff]
    constructor
    · rintro ⟨rfl, rfl⟩
      simp
    · rintro ⟨hlen, _, rfl⟩
      rw [List.eq_nil_of_length_eq_zero hlen]
      exact ⟨rfl, rfl⟩
  | n + 1, l, b => by
    constructor
    · intro h
      rw [readAffected] at h
      obtain ⟨tx, c, htx, h₁⟩ := run_bind_iff.1 h
      obtain ⟨hash, d, hhash, h₂⟩ := run_bind_iff.1 h₁
      obtain ⟨es, e, hes, hpure⟩ := run_bind_iff.1 h₂
      obtain ⟨rfl, rfl⟩ := run_pure_iff.1 hpure
      obtain ⟨hlt, rfl⟩ := run_readField_iff.1 htx
      obtain ⟨hlh, rfl⟩ := run_readField_iff.1 hhash
      obtain ⟨rfl, hall, rfl⟩ := run_readAffected_iff.1 hes
      refine ⟨rfl, List.forall_mem_cons.2 ⟨⟨hlt, hlh⟩, hall⟩, ?_⟩
      simp only [List.flatMap_cons, List.append_assoc]
    · rintro ⟨hlen, hall, rfl⟩
      cases l with
      | nil => exact nomatch hlen
      | cons e l =>
        obtain ⟨⟨hlt, hlh⟩, hall⟩ := List.forall_mem_cons.1 hall
        rw [readAffected, List.flatMap_cons]
        simp only [List.append_assoc]
        refine run_bind_iff.2 ⟨_, _, run_readField_iff.2 ⟨hlt, rfl⟩, ?_⟩
        refine run_bind_iff.2 ⟨_, _, run_readField_iff.2 ⟨hlh, rfl⟩, ?_⟩
        exact run_bind_iff.2
          ⟨l, rest, run_readAffected_iff.2 ⟨Nat.succ.inj hlen, hall, rfl⟩, rfl⟩

theorem decides_readAffected : ∀ n, (readAffected n).Decides
  | 0 => Reader.decides_pure []
  | n + 1 => by
    rw [readAffected]
    refine (decides_readField _).bind fun tx => (decides_readField _).bind fun hash => ?_
    exact (decides_readAffected n).bind fun es => Reader.decides_pure _

/-- A part that stands there only in some case, if it is not what it is by default in just that
case. -/
theorem run_part_iff {α : Type} {p q : Prop} [Decidable p] {otherwise a : α} {r : Reader α}
    {c : Bytes} (ha : a ≠ otherwise ↔ p) (hc : c ≠ []) (hq : a = otherwise → q)
    (hr : r.run b = .ok a rest ↔ q ∧ b = c ++ rest) :
    EStateM.run (if p then ifMore otherwise r else pure otherwise) b = .ok a rest ↔
      q ∧ b = (if p then c else []) ++ rest := by
  by_cases hp : p
  · rw [if_pos hp, if_pos hp, run_ifMore_iff, hr]
    constructor
    · rintro (⟨_, h, _⟩ | ⟨_, h⟩)
      · exact absurd h (ha.2 hp)
      · exact h
    · rintro ⟨h, rfl⟩
      exact .inr ⟨List.append_ne_nil_of_left_ne_nil hc rest, h, rfl⟩
  · have hdefault : a = otherwise := by_contra fun h => hp (ha.1 h)
    rw [if_neg hp, if_neg hp, run_pure_iff, List.nil_append]
    constructor
    · rintro ⟨_, rfl⟩
      exact ⟨hq hdefault, rfl⟩
    · rintro ⟨_, rfl⟩
      exact ⟨hdefault, rfl⟩

theorem run_readExecHash_iff {mode : PrivacyMode} {e : Bytes}
    (he : e ≠ [] ↔ mode = .privateStateValidation) :
    (readExecHash mode).run b = .ok e rest ↔ e.length < lengthLimit ∧
      b = (if mode = .privateStateValidation then field e else []) ++ rest := by
  refine run_part_iff he (field_ne_nil e) ?_ run_readField_iff
  rintro rfl
  decide

theorem run_readMandatory_iff {mode : PrivacyMode} {ks : List PublicKey}
    (hks : ks ≠ [] ↔ mode = .mandatoryRecipients) :
    (readMandatory mode).run b = .ok ks rest ↔ ks.length < lengthLimit ∧
      b = (if mode = .mandatoryRecipients then array (ks.map Key.bytes) else []) ++ rest := by
  refine run_part_iff hks (array_ne_nil _) ?_ run_keyArray_iff
  rintro rfl
  decide

/-- What is left at the end is a group id, with whatever stands behind it. -/
theorem run_readGroupId_iff {id : Option GroupId} :
    (∃ rest, readGroupId.run b = .ok id rest) ↔ ∃ t : Option (GroupId × Bytes),
      (∀ e ∈ t, e.1.bytes.length < lengthLimit) ∧ b = tailBytes t ∧ id = t.map (·.1) := by
  constructor
  · rintro ⟨rest, h⟩
    rcases run_ifMore_iff.1 h with ⟨rfl, rfl, _⟩ | ⟨_, h⟩
    · exact ⟨none, nofun, rfl, rfl⟩
    · obtain ⟨g, c, hg, hpure⟩ := run_bind_iff.1 h
      obtain ⟨rfl, rfl⟩ := run_pure_iff.1 hpure
      obtain ⟨hlen, rfl⟩ := run_readField_iff.1 hg
      refine ⟨some (⟨g⟩, rest), fun e he => ?_, rfl, rfl⟩
      cases he
      exact hlen
  · rintro ⟨t, ht, rfl, rfl⟩
    cases t with
    | none => exact ⟨[], rfl⟩
    | some e =>
      refine ⟨e.2, run_ifMore_iff.2 (.inr ⟨?_, ?_⟩)⟩
      · exact List.append_ne_nil_of_left_ne_nil (field_ne_nil _) _
      · exact run_bind_iff.2 ⟨_, _, run_readField_iff.2 ⟨ht e rfl, rfl⟩, rfl⟩

end Parts

/-! ## The whole payload -/

theorem run_readHead_iff {b rest : Bytes} {d : Draft} : readHead.run b = .ok d rest ↔
    ∃ h : Head, h.Fits ∧ d = h.draft [] ∧ b = h.bytes ++ rest := by
  constructor
  · intro h
    rw [readHead] at h
    obtain ⟨s, b₁, hs, h₁⟩ := run_bind_iff.1 h
    obtain ⟨k, b₂, hk, h₂⟩ := run_bind_iff.1 h₁
    obtain ⟨c, b₃, hc, h₃⟩ := run_bind_iff.1 h₂
    obtain ⟨n, b₄, hn, h₄⟩ := run_bind_iff.1 h₃
    obtain ⟨bs, b₅, hbs, h₅⟩ := run_bind_iff.1 h₄
    obtain ⟨rn, b₆, hrn, h₆⟩ := run_bind_iff.1 h₅
    obtain ⟨rfl, rfl⟩ := run_pure_iff.1 h₆
    obtain ⟨_, rfl⟩ := run_readField_iff.1 hs
    obtain ⟨rfl, rfl⟩ := run_readKey_iff.1 hk
    obtain ⟨hlc, rfl⟩ := run_readField_iff.1 hc
    obtain ⟨hln, rfl⟩ := run_readField_iff.1 hn
    obtain ⟨hlbs, hall, rfl⟩ := run_readArray_iff.1 hbs
    obtain ⟨hlrn, rfl⟩ := run_readField_iff.1 hrn
    refine ⟨⟨k, c, ⟨n⟩, bs.map Blob.mk, ⟨rn⟩⟩, ⟨hlc, hln, ?_, ?_, hlrn⟩, rfl, ?_⟩
    · rwa [List.length_map]
    · simpa using hall
    · rw [Head.bytes, Blob.map_bytes_map_mk]
      simp only [List.append_assoc]
  · rintro ⟨h, hh, rfl, rfl⟩
    have hboxes : (h.boxes.map Blob.bytes).length < lengthLimit := by
      rw [List.length_map]
      exact hh.boxes
    have hbox : ∀ v ∈ h.boxes.map Blob.bytes, v.length < lengthLimit := by
      simpa using hh.box
    rw [readHead, Head.bytes]
    simp only [List.append_assoc]
    refine run_bind_iff.2 ⟨_, _, run_readField_iff.2 ⟨h.sender.length_lt, rfl⟩, ?_⟩
    refine run_bind_iff.2 ⟨_, _, run_readKey_iff.2 ⟨rfl, rfl⟩, ?_⟩
    refine run_bind_iff.2 ⟨_, _, run_readField_iff.2 ⟨hh.cipherText, rfl⟩, ?_⟩
    refine run_bind_iff.2 ⟨_, _, run_readField_iff.2 ⟨hh.nonce, rfl⟩, ?_⟩
    refine run_bind_iff.2 ⟨_, _, run_readArray_iff.2 ⟨hboxes, hbox, rfl⟩, ?_⟩
    refine run_bind_iff.2 ⟨_, _, run_readField_iff.2 ⟨hh.recipientNonce, rfl⟩, ?_⟩
    rw [Blob.map_mk_map_bytes]
    rfl

theorem middle_eq (s : Sections) : s.middle =
    (if s.mode = .privateStateValidation then field s.execHash else []) ++
      (if s.mode = .mandatoryRecipients then array (s.mandatory.map Key.bytes) else []) := by
  unfold Sections.middle
  cases s.mode <;> simp

theorem Head.admits_draft (h : Head) (ks : List PublicKey) :
    (h.draft ks).mode.Admits (h.draft ks).execHash (h.draft ks).mandatory :=
  PrivacyMode.admits_nothing

theorem Sections.Fits.admits {s : Sections} (hs : s.Fits) :
    s.mode.Admits s.execHash (.ofList s.mandatory) :=
  ⟨hs.execHash_iff, (not_congr SortedSet.ofList_eq_empty_iff).trans hs.mandatory_iff⟩

/-- Whether a draft that is read off a byte string builds, and to what but for its sender. -/
def Yields (r : Reader Draft) (b : Bytes) (e : Draft) : Prop :=
  ∃ d rest, r.run b = .ok d rest ∧ d.mode.Admits d.execHash d.mandatory ∧
    e = { d with groupId := nonemptyGroupId d.groupId }

section Yields

variable {b : Bytes} {d e : Draft} {r : Reader Draft}

theorem yields_bind_iff {α : Type} {r : Reader α} {f : α → Reader Draft} :
    Yields (r >>= f) b e ↔ ∃ a c, r.run b = .ok a c ∧ Yields (f a) c e := by
  constructor
  · rintro ⟨d, rest, h, hd⟩
    obtain ⟨a, c, ha, hf⟩ := run_bind_iff.1 h
    exact ⟨a, c, ha, d, rest, hf, hd⟩
  · rintro ⟨a, c, ha, d, rest, hf, hd⟩
    exact ⟨d, rest, run_bind_iff.2 ⟨a, c, ha, hf⟩, hd⟩

/-- A draft that has no sections builds as it is. -/
theorem yields_draft_iff {h : Head} {ks : List PublicKey} :
    Yields (pure (h.draft ks)) b e ↔ e = h.draft ks := by
  constructor
  · rintro ⟨d, rest, hrun, _, rfl⟩
    obtain ⟨rfl, _⟩ := run_pure_iff.1 hrun
    rfl
  · rintro rfl
    exact ⟨h.draft ks, b, rfl, h.admits_draft ks, rfl⟩

theorem yields_ifMore_iff {h : Head} {ks : List PublicKey} :
    Yields (ifMore (h.draft ks) r) b e ↔
      (b = [] ∧ e = h.draft ks) ∨ (b ≠ [] ∧ Yields r b e) := by
  by_cases hb : b = []
  · subst hb
    have hpure : Yields (ifMore (h.draft ks) r) [] e ↔ Yields (pure (h.draft ks)) [] e := Iff.rfl
    rw [hpure, yields_draft_iff]
    simp
  · unfold Yields
    rw [ifMore, run_hasMore_bind hb, if_pos rfl]
    simp [hb]

theorem yields_readPrivacy_iff :
    Yields (readPrivacy d) b e ↔ ∃ s : Sections, s.Fits ∧ b = s.bytes ∧ e = s.draft d := by
  constructor
  · rintro ⟨_, rest, h, hadmits, rfl⟩
    rw [readPrivacy] at h
    obtain ⟨flag, b₁, hflag, h₁⟩ := run_bind_iff.1 h
    obtain ⟨n, b₂, hn, h₂⟩ := run_bind_iff.1 h₁
    obtain ⟨l, b₃, hl, h₃⟩ := run_bind_iff.1 h₂
    obtain ⟨x, b₄, hx, h₄⟩ := run_bind_iff.1 h₃
    obtain ⟨ks, b₅, hks, h₅⟩ := run_bind_iff.1 h₄
    obtain ⟨id, b₆, hid, h₆⟩ := run_bind_iff.1 h₅
    obtain ⟨rfl, rfl⟩ := run_pure_iff.1 h₆
    have hmandatory : ks ≠ [] ↔ PrivacyMode.ofFlag (flag.headD 0) = .mandatoryRecipients := by
      rw [Ne, ← SortedSet.ofList_eq_empty_iff]
      exact hadmits.2
    obtain ⟨hlflag, rfl⟩ := run_readField_iff.1 hflag
    obtain ⟨hln, rfl⟩ := run_readCount_iff.1 hn
    obtain ⟨rfl, hall, rfl⟩ := run_readAffected_iff.1 hl
    obtain ⟨hlx, rfl⟩ := (run_readExecHash_iff hadmits.1).1 hx
    obtain ⟨hlks, rfl⟩ := (run_readMandatory_iff hmandatory).1 hks
    obtain ⟨t, ht, rfl, rfl⟩ := run_readGroupId_iff.1 ⟨_, hid⟩
    refine ⟨⟨flag, l, x, ks, t⟩, ⟨hlflag, hln, hall, hlx, hadmits.1, hlks, hmandatory, ht⟩, ?_, rfl⟩
    rw [Sections.bytes, middle_eq]
    simp only [List.append_assoc]
    rfl
  · rintro ⟨s, hs, rfl, rfl⟩
    obtain ⟨rest, hid⟩ := run_readGroupId_iff.2 ⟨s.tail, hs.groupId, rfl, rfl⟩
    refine ⟨{ s.draft d with groupId := s.tail.map (·.1) }, rest, ?_, ?_, rfl⟩
    · rw [Sections.bytes, middle_eq, readPrivacy]
      simp only [List.append_assoc]
      refine run_bind_iff.2 ⟨_, _, run_readField_iff.2 ⟨hs.flag, rfl⟩, ?_⟩
      refine run_bind_iff.2 ⟨_, _, run_readCount_iff.2 ⟨hs.affected, rfl⟩, ?_⟩
      refine run_bind_iff.2 ⟨_, _, run_readAffected_iff.2 ⟨rfl, hs.entry, rfl⟩, ?_⟩
      refine run_bind_iff.2 ⟨_, _, (run_readExecHash_iff hs.execHash_iff).2 ⟨hs.execHash, rfl⟩, ?_⟩
      refine run_bind_iff.2
        ⟨_, _, (run_readMandatory_iff hs.mandatory_iff).2 ⟨hs.mandatory, rfl⟩, ?_⟩
      exact run_bind_iff.2 ⟨_, _, hid, rfl⟩
    · exact hs.admits

end Yields

/-- Reading goes on as long as bytes are left. -/
theorem readDraft_eq : readDraft = (do
    let d ← readHead
    ifMore d do
      let keys ← (do (← readArray "recipient keys").mapM (readKey "recipient key"))
      ifMore { d with recipients := keys } (readPrivacy { d with recipients := keys })) := by
  have hmore : ∀ (d : Draft) (r : Reader Draft),
      (hasMore >>= fun more => if (!more) = true then pure d else r) = ifMore d r := by
    intro d r
    refine bind_congr fun more => ?_
    cases more <;> rfl
  rw [readDraft]
  refine bind_congr fun d => ?_
  rw [hmore]
  refine congrArg (ifMore d) ?_
  rw [bind_assoc]
  refine bind_congr fun vs => bind_congr fun ks => ?_
  exact hmore _ _

theorem yields_readDraft_iff {b : Bytes} {e : Draft} : Yields readDraft b e ↔ Reads b e := by
  rw [readDraft_eq, yields_bind_iff]
  constructor
  · rintro ⟨d, c, hhead, hrest⟩
    obtain ⟨h, hh, rfl, rfl⟩ := run_readHead_iff.1 hhead
    rcases yields_ifMore_iff.1 hrest with ⟨rfl, rfl⟩ | ⟨_, hmore⟩
    · rw [List.append_nil]
      exact .head hh
    · obtain ⟨ks, c', hks, hkeys⟩ := yields_bind_iff.1 hmore
      obtain ⟨hlen, rfl⟩ := run_keyArray_iff.1 hks
      have hkeys : Yields (ifMore (h.draft ks) (readPrivacy (h.draft ks))) c' e := hkeys
      rcases yields_ifMore_iff.1 hkeys with ⟨rfl, rfl⟩ | ⟨_, hprivacy⟩
      · rw [List.append_nil]
        exact .recipients hh hlen
      · obtain ⟨s, hs, rfl, rfl⟩ := yields_readPrivacy_iff.1 hprivacy
        rw [← List.append_assoc]
        exact .sections hh hlen hs
  · intro hreads
    cases hreads with
    | @head h hh =>
      refine ⟨_, [], run_readHead_iff.2 ⟨h, hh, rfl, (List.append_nil _).symm⟩, ?_⟩
      exact yields_ifMore_iff.2 (.inl ⟨rfl, rfl⟩)
    | @recipients h ks hh hks =>
      refine ⟨_, _, run_readHead_iff.2 ⟨h, hh, rfl, rfl⟩, ?_⟩
      refine yields_ifMore_iff.2 (.inr ⟨array_ne_nil _, ?_⟩)
      refine yields_bind_iff.2 ⟨ks, [], run_keyArray_iff.2 ⟨hks, (List.append_nil _).symm⟩, ?_⟩
      exact (yields_ifMore_iff (h := h)).2 (.inl ⟨rfl, rfl⟩)
    | @sections h ks s hh hks hs =>
      rw [List.append_assoc]
      refine ⟨_, _, run_readHead_iff.2 ⟨h, hh, rfl, rfl⟩, ?_⟩
      refine yields_ifMore_iff.2 (.inr ⟨List.append_ne_nil_of_left_ne_nil (array_ne_nil _) _, ?_⟩)
      refine yields_bind_iff.2 ⟨ks, s.bytes, run_keyArray_iff.2 ⟨hks, rfl⟩, ?_⟩
      refine (yields_ifMore_iff (h := h)).2 (.inr ⟨?_, ?_⟩)
      · rw [Sections.bytes]
        simp [field_ne_nil]
      · exact yields_readPrivacy_iff.2 ⟨s, hs, rfl, rfl⟩

theorem decides_readDraft : readDraft.Decides := by
  have hhead : readHead.Decides := by
    refine (decides_readField _).bind fun v => (decides_readKey _ v).bind fun k => ?_
    refine (decides_readField _).bind fun c => (decides_readField _).bind fun n => ?_
    refine (decides_readArray _).bind fun bs => (decides_readField _).bind fun rn => ?_
    exact Reader.decides_pure _
  have hkeys : ∀ what what', Reader.Decides (do (← readArray what).mapM (readKey what')) :=
    fun what what' => (decides_readArray what).bind (Reader.decides_mapM (decides_readKey what'))
  have hexec : ∀ mode, (readExecHash mode).Decides := by
    intro mode
    unfold readExecHash
    split
    · exact decides_ifMore [] (decides_readField _)
    · exact Reader.decides_pure []
  have hmandatory : ∀ mode, (readMandatory mode).Decides := by
    intro mode
    unfold readMandatory
    split
    · exact decides_ifMore [] (hkeys _ _)
    · exact Reader.decides_pure []
  have hgroup : readGroupId.Decides :=
    decides_ifMore none ((decides_readField _).bind fun g => Reader.decides_pure _)
  have hprivacy : ∀ d, (readPrivacy d).Decides := by
    intro d
    refine (decides_readField _).bind fun flag => (decides_readCount _).bind fun n => ?_
    refine (decides_readAffected n).bind fun l => (hexec _).bind fun e => ?_
    exact (hmandatory _).bind fun ks => hgroup.bind fun id => Reader.decides_pure _
  rw [readDraft_eq]
  refine hhead.bind fun d => decides_ifMore d ?_
  exact (hkeys _ _).bind fun ks => decides_ifMore _ (hprivacy _)

theorem decode_eq_ok_iff {b : Bytes} {p : Payload} :
    decode b = .ok p ↔ Reads b p.toDraft := by
  rw [decode, Outcome.bind_eq_ok_iff, ← yields_readDraft_iff]
  constructor
  · rintro ⟨d, hd, hp⟩
    obtain ⟨rest, hrun⟩ := eval_eq_ok_iff.1 hd
    obtain ⟨hadmits, hp⟩ := Draft.build_eq_ok_iff.1 hp
    exact ⟨d, rest, hrun, hadmits, hp⟩
  · rintro ⟨d, rest, hrun, hadmits, hp⟩
    exact ⟨d, eval_eq_ok_iff.2 ⟨rest, hrun⟩, Draft.build_eq_ok_iff.2 ⟨hadmits, hp⟩⟩

/-- What is read is a payload. -/
theorem Reads.exists_payload {b : Bytes} {d : Draft} (h : Reads b d) :
    ∃ p : Payload, p.toDraft = d := by
  cases h with
  | head _ => exact Draft.exists_payload rfl (Head.admits_draft _ _) nofun
  | recipients _ _ => exact Draft.exists_payload rfl (Head.admits_draft _ _) nofun
  | sections _ _ hs => exact Draft.exists_payload rfl hs.admits (nonemptyGroupId_ne _)

/-- What is not accepted is found malformed. -/
theorem malformed_of_decode {b : Bytes} {e : EnclaveError} (h : decode b = .error e) :
    ∃ reason, e = .malformedPayload reason := by
  rw [decode] at h
  cases hread : readDraft.eval b with
  | ok d =>
    rw [hread] at h
    exact Draft.malformed_of_build h
  | error e' =>
    rw [hread] at h
    cases h
    exact decides_readDraft.malformed_of_eval hread

/-- **The field format accepts just its grammar**, with the parts that it gives, and finds all other
byte strings malformed. -/
theorem decode_iff (b : Bytes) :
    (∀ p, decode b = .ok p ↔ Reads b p.toDraft) ∧
    ((∃ p, decode b = .ok p) ↔ ∃ d, Reads b d) ∧
    ((∃ reason, decode b = .error (.malformedPayload reason)) ↔ ¬∃ d, Reads b d) := by
  have haccepted : (∃ p, decode b = .ok p) ↔ ∃ d, Reads b d := by
    constructor
    · rintro ⟨p, hp⟩
      exact ⟨p.toDraft, decode_eq_ok_iff.1 hp⟩
    · rintro ⟨d, hd⟩
      obtain ⟨p, rfl⟩ := hd.exists_payload
      exact ⟨p, decode_eq_ok_iff.2 hd⟩
  refine ⟨fun p => decode_eq_ok_iff, haccepted, ?_⟩
  rw [← haccepted]
  cases hb : decode b with
  | ok p => simp
  | error e =>
    obtain ⟨reason, rfl⟩ := malformed_of_decode hb
    simp

-- a transaction that comes twice, an empty group id, and a byte behind it
example : (decode (field (List.replicate 32 1) ++ field [] ++ field [] ++ array [] ++ field [] ++
    array [] ++ field [] ++ count 2 ++ field [7] ++ field [1] ++ field [7] ++ field [2] ++
    field [] ++ [9])).toOption.map (fun p => (p.affected.entries, p.groupId)) =
      some ([(⟨[7]⟩, ⟨[2]⟩)], none) := by
  decide +kernel

end SealedTx.Codec.Legacy
