import SealedTx.Proofs.Codec.ByName

/-!
# What the map format accepts

A byte string is a payload in the map format if it begins with an item that is a map and says, under
every name, what a payload may say there (`Schema`). What a map says under a name is the value of
its last entry of that name, or else the default of the name; the first four names have none, so
they have to be there.

There is no more to it. Texts for the hashes of affected transactions are just those that are
written for them, but for blanks at their ends. A flag may be an integer of any size, but only three
integers stand for a mode other than the standard one (`modeOf`); one that agrees with them only in
its last byte does not. What does not keep to the schema is malformed, be it no item at all, an item
of another kind or a part that the mode has no use for (`decode_iff_accepts`).
-/

namespace SealedTx.Codec.Named

open Cbor Outcome

variable {entries : List (Value × Value)} {name : String} {v : Value}

/-! ## The schema -/

/-- Whether a map has a value for a name: as that of the last entry of the name, or by default if
there is no entry of the name. -/
def Says (name : String) (v : Value) (entries : List (Value × Value)) : Prop :=
  LastNamed name v entries ∨ Unnamed name entries ∧ default? name = some v

/-- The mode of a flag. -/
def modeOf (flag : Int) : PrivacyMode :=
  if flag = 1 then .partyProtection
  else if flag = 2 then .mandatoryRecipients
  else if flag = 3 then .privateStateValidation
  else .standardPrivate

/-- The hash of an affected transaction, in a text that may have blanks at its ends, and the hash
that is declared for it. -/
structure AffectedText where
  text : String
  tx : TxHash
  hash : SecurityHash
  trim_text : Text.trim text = tx.toBase64

namespace AffectedText

def entry (a : AffectedText) : Value × Value := (.text a.text, .bytes a.hash.bytes)

def pair (a : AffectedText) : TxHash × SecurityHash := (a.tx, a.hash)

end AffectedText

/-- The parts that a map says. -/
structure Parts where
  sender : PublicKey
  cipherText : Bytes
  nonce : Nonce
  recipientNonce : Nonce
  boxes : List RecipientBox
  recipients : List PublicKey
  flag : Int
  affected : List AffectedText
  execHash : Bytes
  mandatory : List PublicKey
  groupId : GroupId

/-- The draft with these parts. An empty group id is none. -/
def Parts.draft (t : Parts) : Draft where
  sender := some t.sender
  cipherText := t.cipherText
  nonce := t.nonce
  boxes := t.boxes
  recipientNonce := t.recipientNonce
  recipients := t.recipients
  mode := modeOf t.flag
  affected := .ofList (t.affected.map AffectedText.pair)
  execHash := t.execHash
  mandatory := .ofList t.mandatory
  groupId := nonemptyGroupId (some t.groupId)

/-- Of the hashes of an affected transaction the last one counts. -/
theorem Parts.get?_affected_draft {t : Parts} {tx : TxHash} {hash : SecurityHash} :
    t.draft.affected.get? tx = some hash ↔ ∃ a b,
      t.affected.map AffectedText.pair = a ++ (tx, hash) :: b ∧ tx ∉ b.map (·.1) :=
  SortedMap.get?_ofList_eq_some_iff

theorem Parts.mem_mandatory_draft {t : Parts} {k : PublicKey} :
    k ∈ SortedSet.toList t.draft.mandatory ↔ k ∈ t.mandatory :=
  SortedSet.mem_toList_ofList

/-- Whether a map says certain parts. -/
structure SaysAll (entries : List (Value × Value)) (t : Parts) : Prop where
  sender : Says senderName (.bytes t.sender.bytes) entries
  cipherText : Says cipherTextName (.bytes t.cipherText) entries
  nonce : Says nonceName (.bytes t.nonce.bytes) entries
  recipientNonce : Says recipientNonceName (.bytes t.recipientNonce.bytes) entries
  boxes : Says boxesName (byteArray (t.boxes.map Blob.bytes)) entries
  recipients : Says recipientsName (byteArray (t.recipients.map Key.bytes)) entries
  flag : Says flagName (.integer t.flag) entries
  affected : Says affectedName (.map (t.affected.map AffectedText.entry)) entries
  execHash : Says execHashName (.bytes t.execHash) entries
  mandatory : Says mandatoryName (byteArray (t.mandatory.map Key.bytes)) entries
  groupId : Says groupIdName (.bytes t.groupId.bytes) entries

/-- Whether a map says parts that a payload may have: just what the mode asks for. -/
structure Schema (entries : List (Value × Value)) (t : Parts) : Prop extends SaysAll entries t where
  execHash_iff : t.execHash ≠ [] ↔ modeOf t.flag = .privateStateValidation
  mandatory_iff : t.mandatory ≠ [] ↔ modeOf t.flag = .mandatoryRecipients

/-- **The byte strings that begin with a payload's map**, each with the draft of the payload. -/
inductive Accepts (b : Bytes) : Draft → Prop
  | map {entries : List (Value × Value)} {rest : Bytes} {t : Parts}
    (hb : Cbor.parse b = .ok (.map entries, rest)) (ht : Schema entries t) : Accepts b t.draft

/-! ## Values -/

theorem says_iff : Says name v entries ↔ valueAt name entries = some v := by
  rw [Says, valueAt, ← lastOf?_eq_some_iff, ← lastOf?_eq_none_iff]
  cases lastOf? name entries with
  | none => simp
  | some w => simp

/-- No integer but the flag of a mode itself is read as the mode. -/
theorem ofInt_eq_modeOf (flag : Int) : PrivacyMode.ofInt flag = modeOf flag := by
  unfold PrivacyMode.ofInt
  by_cases hflag : 0 ≤ flag ∧ flag < 256
  · have key : ∀ n : Fin 256, PrivacyMode.ofFlag (UInt8.ofNat n) = modeOf (n : Nat) := by
      decide +kernel
    have h := key ⟨flag.toNat, by omega⟩
    rw [if_pos hflag, h, Int.toNat_of_nonneg hflag.1]
  · rw [if_neg hflag, modeOf, if_neg (by omega), if_neg (by omega), if_neg (by omega)]

theorem expectBytes_eq_ok_iff {b : Bytes} : expectBytes name v = .ok b ↔ .bytes b = v := by
  cases v <;> simp [expectBytes, eq_comm]

theorem expectByteArray_eq_ok_iff {items : List Bytes} :
    expectByteArray name v = .ok items ↔ byteArray items = v := by
  cases v with
  | array l =>
    rw [expectByteArray, mapM_eq_ok_iff_map fun a b => expectBytes_eq_ok_iff]
    simp [byteArray]
  | _ => simp [expectByteArray, byteArray]

theorem expectKeys_eq_ok_iff {ks : List PublicKey} :
    expectKeys name v = .ok ks ↔ byteArray (ks.map Key.bytes) = v := by
  rw [expectKeys, bind_eq_ok_iff]
  simp only [expectByteArray_eq_ok_iff, mapM_eq_ok_iff_map fun _ _ => expectKey_eq_ok_iff]
  constructor
  · rintro ⟨items, rfl, rfl⟩
    rfl
  · rintro rfl
    exact ⟨_, rfl, rfl⟩

theorem expectMode_eq_ok_iff {m : PrivacyMode} :
    expectMode name v = .ok m ↔ ∃ flag, .integer flag = v ∧ modeOf flag = m := by
  cases v <;> simp [expectMode, ofInt_eq_modeOf]

/-- An affected transaction is read off the text of its hash, and of no other text. -/
theorem expectAffectedEntry_eq_ok_iff {e : Value × Value} {d : TxHash × SecurityHash} :
    expectAffectedEntry name e = .ok d ↔ ∃ a : AffectedText, a.entry = e ∧ a.pair = d := by
  constructor
  · intro h
    unfold expectAffectedEntry at h
    split at h
    next s v =>
      obtain ⟨tx, htx, hhash⟩ := bind_eq_ok_iff.1 h
      obtain ⟨b, hb, hd⟩ := bind_eq_ok_iff.1 hhash
      obtain rfl := expectBytes_eq_ok_iff.1 hb
      cases hd
      exact ⟨⟨s, tx, ⟨b⟩, Blob.ofBase64_eq_ok_iff.1 (mapError_eq_ok_iff.1 htx)⟩, rfl, rfl⟩
    next => cases h
  · rintro ⟨a, rfl, rfl⟩
    rw [AffectedText.entry, expectAffectedEntry, Blob.ofBase64_eq_ok_iff.2 a.trim_text]
    rfl

theorem expectAffected_eq_ok_iff {m : SortedMap TxHash SecurityHash} :
    expectAffected name v = .ok m ↔ ∃ l : List AffectedText,
      .map (l.map AffectedText.entry) = v ∧ .ofList (l.map AffectedText.pair) = m := by
  cases v with
  | map es =>
    rw [expectAffected, bind_eq_ok_iff]
    simp only [mapM_eq_ok_iff_exists fun _ _ => expectAffectedEntry_eq_ok_iff]
    constructor
    · rintro ⟨ds, ⟨l, rfl, rfl⟩, hm⟩
      exact ⟨l, rfl, Except.ok.inj hm⟩
    · rintro ⟨l, hl, rfl⟩
      exact ⟨_, ⟨l, Value.map.inj hl, rfl⟩, rfl⟩
  | _ => simp [expectAffected]

/-! ## Entries -/

theorem requiredBytes_eq_ok_iff {b : Bytes} (hname : default? name = none) :
    requiredBytes entries name = .ok b ↔ Says name (.bytes b) entries := by
  rw [says_iff, valueAt, hname, Option.or_none, requiredBytes]
  cases lastOf? name entries with
  | none => simp
  | some w => simp [expectBytes_eq_ok_iff, eq_comm (a := w)]

/-- A part with a default is read off what the map says. -/
theorem optional_eq_ok_iff {α : Type} {a c : α} {expect : String → Value → Except EnclaveError α}
    (hname : default? name = some v) (hv : expect name v = .ok a) :
    optional entries name a expect = .ok c ↔
      ∃ w, Says name w entries ∧ expect name w = .ok c := by
  rw [optional_eq hname hv]
  simp only [says_iff, valueAt, hname]
  cases lastOf? name entries with
  | none => simp [hv]
  | some w => simp

theorem optionalBytes_eq_ok_iff {b : Bytes} (hname : default? name = some (.bytes [])) :
    optional entries name [] expectBytes = .ok b ↔ Says name (.bytes b) entries := by
  rw [optional_eq_ok_iff hname rfl]
  simp only [expectBytes_eq_ok_iff, exists_eq_right']

theorem optionalByteArray_eq_ok_iff {items : List Bytes}
    (hname : default? name = some (.array [])) :
    optional entries name [] expectByteArray = .ok items ↔
      Says name (byteArray items) entries := by
  rw [optional_eq_ok_iff hname rfl]
  simp only [expectByteArray_eq_ok_iff, exists_eq_right']

theorem optionalKeys_eq_ok_iff {ks : List PublicKey} (hname : default? name = some (.array [])) :
    optional entries name [] expectKeys = .ok ks ↔
      Says name (byteArray (ks.map Key.bytes)) entries := by
  rw [optional_eq_ok_iff hname rfl]
  simp only [expectKeys_eq_ok_iff, exists_eq_right']

theorem optionalMode_eq_ok_iff {m : PrivacyMode} :
    optional entries flagName .standardPrivate expectMode = .ok m ↔
      ∃ flag, Says flagName (.integer flag) entries ∧ modeOf flag = m := by
  rw [optional_eq_ok_iff rfl rfl]
  simp only [expectMode_eq_ok_iff]
  constructor
  · rintro ⟨_, h, flag, rfl, rfl⟩
    exact ⟨flag, h, rfl⟩
  · rintro ⟨flag, h, rfl⟩
    exact ⟨_, h, flag, rfl, rfl⟩

theorem optionalAffected_eq_ok_iff {m : SortedMap TxHash SecurityHash} :
    optional entries affectedName .empty expectAffected = .ok m ↔
      ∃ l : List AffectedText, Says affectedName (.map (l.map AffectedText.entry)) entries ∧
        .ofList (l.map AffectedText.pair) = m := by
  rw [optional_eq_ok_iff rfl rfl]
  simp only [expectAffected_eq_ok_iff]
  constructor
  · rintro ⟨_, h, l, rfl, rfl⟩
    exact ⟨l, h, rfl⟩
  · rintro ⟨l, h, rfl⟩
    exact ⟨_, h, l, rfl, rfl⟩

/-- A draft is made just of the parts that a map says. -/
theorem ofEntries_eq_ok_iff {d : Draft} : ofEntries entries = .ok d ↔
    ∃ t : Parts, SaysAll entries t ∧ d = { t.draft with groupId := some t.groupId } := by
  unfold ofEntries
  simp only [bind_eq_ok_iff, expectKey_eq_ok_iff, optionalMode_eq_ok_iff,
    optionalAffected_eq_ok_iff]
  constructor
  · rintro ⟨_, hsender, sender, rfl, cipherText, hcipherText, nonce, hnonce, recipientNonce,
      hrecipientNonce, boxes, hboxes, recipients, hrecipients, _, ⟨flag, hflag, rfl⟩, _,
      ⟨affected, haffected, rfl⟩, execHash, hexecHash, mandatory, hmandatory, groupId, hgroupId, hd⟩
    cases hd
    refine ⟨⟨sender, cipherText, ⟨nonce⟩, ⟨recipientNonce⟩, boxes.map Blob.mk, recipients, flag,
      affected, execHash, mandatory, ⟨groupId⟩⟩, ?_, rfl⟩
    constructor
    case sender => exact (requiredBytes_eq_ok_iff rfl).1 hsender
    case cipherText => exact (requiredBytes_eq_ok_iff rfl).1 hcipherText
    case nonce => exact (requiredBytes_eq_ok_iff rfl).1 hnonce
    case recipientNonce => exact (requiredBytes_eq_ok_iff rfl).1 hrecipientNonce
    case boxes =>
      rw [Blob.map_bytes_map_mk]
      exact (optionalByteArray_eq_ok_iff rfl).1 hboxes
    case recipients => exact (optionalKeys_eq_ok_iff rfl).1 hrecipients
    case flag => exact hflag
    case affected => exact haffected
    case execHash => exact (optionalBytes_eq_ok_iff rfl).1 hexecHash
    case mandatory => exact (optionalKeys_eq_ok_iff rfl).1 hmandatory
    case groupId => exact (optionalBytes_eq_ok_iff rfl).1 hgroupId
  · rintro ⟨t, h, rfl⟩
    refine ⟨_, (requiredBytes_eq_ok_iff rfl).2 h.sender, _, rfl, _,
      (requiredBytes_eq_ok_iff rfl).2 h.cipherText, _, (requiredBytes_eq_ok_iff rfl).2 h.nonce, _,
      (requiredBytes_eq_ok_iff rfl).2 h.recipientNonce, _,
      (optionalByteArray_eq_ok_iff rfl).2 h.boxes, _,
      (optionalKeys_eq_ok_iff rfl).2 h.recipients, _, ⟨_, h.flag, rfl⟩, _, ⟨_, h.affected, rfl⟩, _,
      (optionalBytes_eq_ok_iff rfl).2 h.execHash, _, (optionalKeys_eq_ok_iff rfl).2 h.mandatory, _,
      (optionalBytes_eq_ok_iff rfl).2 h.groupId, ?_⟩
    rw [Blob.map_mk_map_bytes]
    rfl

/-! ## What is malformed -/

def Malformed (e : EnclaveError) : Prop := ∃ reason, e = .malformedPayload reason

theorem failsOnly_malformed {α : Type} (reason : String) :
    FailsOnly Malformed (.error (.malformedPayload reason) : Except EnclaveError α) :=
  failsOnly_error ⟨reason, rfl⟩

theorem failsOnly_mapError {ε α : Type} (x : Except ε α) (f : ε → String) :
    FailsOnly Malformed (x.mapError fun e => .malformedPayload (f e)) := by
  cases x with
  | error e => exact failsOnly_malformed (f e)
  | ok a => exact failsOnly_ok a

theorem failsOnly_expectBytes (name : String) (v : Value) :
    FailsOnly Malformed (expectBytes name v) := by
  cases v with
  | bytes b => exact failsOnly_ok b
  | _ => exact failsOnly_malformed _

theorem failsOnly_expectByteArray (name : String) (v : Value) :
    FailsOnly Malformed (expectByteArray name v) := by
  cases v with
  | array items => exact failsOnly_mapM (failsOnly_expectBytes name) items
  | _ => exact failsOnly_malformed _

theorem failsOnly_expectKeys (name : String) (v : Value) :
    FailsOnly Malformed (expectKeys name v) :=
  (failsOnly_expectByteArray name v).bind fun items =>
    failsOnly_mapM (fun _ => failsOnly_mapError _ _) items

theorem failsOnly_expectMode (name : String) (v : Value) :
    FailsOnly Malformed (expectMode name v) := by
  cases v with
  | integer n => exact failsOnly_ok _
  | _ => exact failsOnly_malformed _

theorem failsOnly_expectAffectedEntry (name : String) (e : Value × Value) :
    FailsOnly Malformed (expectAffectedEntry name e) := by
  unfold expectAffectedEntry
  split
  · refine (failsOnly_mapError _ _).bind fun tx => ?_
    exact (failsOnly_expectBytes name _).bind fun b => failsOnly_ok _
  · exact failsOnly_malformed _

theorem failsOnly_expectAffected (name : String) (v : Value) :
    FailsOnly Malformed (expectAffected name v) := by
  cases v with
  | map es =>
    refine FailsOnly.bind ?_ fun ds => failsOnly_ok _
    exact failsOnly_mapM (failsOnly_expectAffectedEntry name) es
  | _ => exact failsOnly_malformed _

theorem failsOnly_requiredBytes (entries : List (Value × Value)) (name : String) :
    FailsOnly Malformed (requiredBytes entries name) := by
  unfold requiredBytes
  split
  · exact failsOnly_expectBytes name _
  · exact failsOnly_malformed _

theorem failsOnly_optional {α : Type} {a : α} {expect : String → Value → Except EnclaveError α}
    (h : ∀ v, FailsOnly Malformed (expect name v)) :
    FailsOnly Malformed (optional entries name a expect) := by
  unfold optional
  split
  · exact h _
  · exact failsOnly_ok a

theorem failsOnly_ofEntries (entries : List (Value × Value)) :
    FailsOnly Malformed (ofEntries entries) := by
  refine (failsOnly_requiredBytes _ _).bind fun _ => (failsOnly_mapError _ _).bind fun _ => ?_
  refine (failsOnly_requiredBytes _ _).bind fun _ => ?_
  refine (failsOnly_requiredBytes _ _).bind fun _ => ?_
  refine (failsOnly_requiredBytes _ _).bind fun _ => ?_
  refine (failsOnly_optional (failsOnly_expectByteArray _)).bind fun _ => ?_
  refine (failsOnly_optional (failsOnly_expectKeys _)).bind fun _ => ?_
  refine (failsOnly_optional (failsOnly_expectMode _)).bind fun _ => ?_
  refine (failsOnly_optional (failsOnly_expectAffected _)).bind fun _ => ?_
  refine (failsOnly_optional (failsOnly_expectBytes _)).bind fun _ => ?_
  refine (failsOnly_optional (failsOnly_expectKeys _)).bind fun _ => ?_
  exact (failsOnly_optional (failsOnly_expectBytes _)).bind fun _ => failsOnly_ok _

theorem failsOnly_decode (b : Bytes) : FailsOnly Malformed (decode b) := by
  unfold decode
  split
  next v _ _ =>
    cases v with
    | map es => exact (failsOnly_ofEntries es).bind fun d e => Draft.malformed_of_build
    | _ => exact failsOnly_malformed _
  next => exact failsOnly_malformed _

/-! ## The whole payload -/

theorem SaysAll.admits_iff {t : Parts} (h : SaysAll entries t) :
    t.draft.mode.Admits t.draft.execHash t.draft.mandatory ↔ Schema entries t := by
  have hmandatory : t.draft.mandatory ≠ .empty ↔ t.mandatory ≠ [] :=
    not_congr SortedSet.ofList_eq_empty_iff
  rw [PrivacyMode.Admits, hmandatory]
  constructor
  · rintro ⟨hexec, hmandatory⟩
    exact ⟨h, hexec, hmandatory⟩
  · intro ht
    exact ⟨ht.execHash_iff, ht.mandatory_iff⟩

theorem ofEntries_build_eq_ok_iff {p : Payload} :
    ofEntries entries >>= Draft.build = .ok p ↔ ∃ t, Schema entries t ∧ p.toDraft = t.draft := by
  rw [bind_eq_ok_iff]
  simp only [ofEntries_eq_ok_iff, Draft.build_eq_ok_iff]
  constructor
  · rintro ⟨_, ⟨t, ht, rfl⟩, hadmits, hp⟩
    exact ⟨t, ht.admits_iff.1 hadmits, hp⟩
  · rintro ⟨t, ht, hp⟩
    exact ⟨_, ⟨t, ht.toSaysAll, rfl⟩, ht.admits_iff.2 ht, hp⟩

theorem decode_eq_ok_iff {b : Bytes} {p : Payload} : decode b = .ok p ↔ Accepts b p.toDraft := by
  constructor
  · intro h
    unfold decode at h
    split at h
    next v rest hb =>
      cases v with
      | map entries =>
        obtain ⟨t, ht, hp⟩ := ofEntries_build_eq_ok_iff.1 h
        rw [hp]
        exact .map hb ht
      | _ => cases h
    next => cases h
  · intro h
    generalize hd : p.toDraft = d at h
    obtain ⟨hb, ht⟩ := h
    rw [decode_of_parse hb]
    exact ofEntries_build_eq_ok_iff.2 ⟨_, ht, hd⟩

/-- What is accepted is a payload. -/
theorem Accepts.exists_payload {b : Bytes} {d : Draft} (h : Accepts b d) :
    ∃ p : Payload, p.toDraft = d := by
  cases h with
  | @map _ _ t _ ht =>
    exact Draft.exists_payload rfl (ht.admits_iff.2 ht) (nonemptyGroupId_ne (some t.groupId))

/-- **The map format accepts just what keeps to its schema**, with the parts that the map says, and
finds all other byte strings malformed, those that are no item among them. -/
theorem decode_iff_accepts (b : Bytes) :
    (∀ p, decode b = .ok p ↔ Accepts b p.toDraft) ∧
    ((∃ p, decode b = .ok p) ↔ ∃ d, Accepts b d) ∧
    ((∃ reason, decode b = .error (.malformedPayload reason)) ↔ ¬∃ d, Accepts b d) := by
  have haccepted : (∃ p, decode b = .ok p) ↔ ∃ d, Accepts b d := by
    constructor
    · rintro ⟨p, hp⟩
      exact ⟨p.toDraft, decode_eq_ok_iff.1 hp⟩
    · rintro ⟨d, hd⟩
      obtain ⟨p, rfl⟩ := hd.exists_payload
      exact ⟨p, decode_eq_ok_iff.2 hd⟩
  refine ⟨fun p => decode_eq_ok_iff, haccepted, ?_⟩
  rw [← haccepted]
  exact exists_error_iff (failsOnly_decode b)

-- a flag that is the one of a mode but for its second byte
example : (decode (Value.map [(.text senderName, .bytes (List.replicate 32 1)),
    (.text cipherTextName, .bytes []), (.text nonceName, .bytes []),
    (.text recipientNonceName, .bytes []), (.text flagName, .integer 257)]).encode).toOption.map
      (fun p => p.mode) = some .standardPrivate := by
  decide +kernel

end SealedTx.Codec.Named
