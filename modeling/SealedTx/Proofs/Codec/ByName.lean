import Mathlib.Logic.Relation
import SealedTx.Proofs.Codec.Detect

/-!
# Reading by name

A payload in the map format is read by the names of its parts and by nothing else. What counts for a
name is the last entry that has the name as its text key, or, if there is none, the default of the
name. Two maps that agree in this for every name are read alike, as the same payload or with the
same error (`decode_by_name`): each part is looked up before it is looked at, and in an order that
the map has no say in, so of several bad entries the same one is reported.

Maps that differ in the order of entries with different keys, in entries with other keys, in earlier
entries of a name or in entries that say what is so by default, agree (`Rearranges.alikeByName`).
-/

namespace SealedTx.Codec.Named

open Cbor

variable {entries entries' : List (Value × Value)} {name : String} {v : Value}

/-! ## The last entry of a name -/

/-- Whether no entry has a name for its key. -/
def Unnamed (name : String) (entries : List (Value × Value)) : Prop :=
  ∀ e ∈ entries, e.1 ≠ .text name

/-- Whether the last entry that has a name for its key has some value. -/
def LastNamed (name : String) (v : Value) (entries : List (Value × Value)) : Prop :=
  ∃ a b, entries = a ++ (.text name, v) :: b ∧ Unnamed name b

theorem lastOf?_append (name : String) (a b : List (Value × Value)) :
    lastOf? name (a ++ b) = (lastOf? name b).or (lastOf? name a) := by
  fun_induction lastOf? name a with
  | case1 => simp
  | case2 s v rest ih => rw [List.cons_append, lastOf?, ih, Option.or_assoc]
  | case3 e rest hne ih =>
    rw [List.cons_append, lastOf?, ih]
    exact hne

theorem lastOf?_eq_none_iff : lastOf? name entries = none ↔ Unnamed name entries := by
  unfold Unnamed
  fun_induction lastOf? name entries with
  | case1 => simp
  | case2 s v rest ih =>
    rw [Option.or_eq_none_iff, ih, List.forall_mem_cons]
    simp [and_comm]
  | case3 e rest hne ih =>
    rw [ih, List.forall_mem_cons]
    exact ⟨fun h => ⟨fun hkey => hne _ _ (Prod.ext hkey rfl), h⟩, fun h => h.2⟩

/-- A look-up finds the last entry of a name. -/
theorem lastOf?_eq_some_iff : lastOf? name entries = some v ↔ LastNamed name v entries := by
  constructor
  · intro h
    fun_induction lastOf? name entries with
    | case1 => cases h
    | case2 s w rest ih =>
      cases hrest : lastOf? name rest with
      | some u =>
        rw [hrest, Option.some_or] at h
        obtain ⟨a, b, rfl, hb⟩ := ih (hrest.trans h)
        exact ⟨(.text s, w) :: a, b, rfl, hb⟩
      | none =>
        rw [hrest, Option.none_or] at h
        split at h
        next hs =>
          cases h
          exact ⟨[], rest, by rw [hs]; rfl, lastOf?_eq_none_iff.1 hrest⟩
        next => cases h
    | case3 e rest hne ih =>
      obtain ⟨a, b, rfl, hb⟩ := ih h
      exact ⟨e :: a, b, rfl, hb⟩
  · rintro ⟨a, b, rfl, hb⟩
    rw [lastOf?_append, lastOf?, lastOf?_eq_none_iff.2 hb, if_pos rfl]
    rfl

/-! ## Maps that say the same -/

/-- The names of the parts. -/
def names : List String :=
  [senderName, cipherTextName, nonceName, recipientNonceName, boxesName, recipientsName, flagName,
    affectedName, execHashName, mandatoryName, groupIdName]

/-- What a missing entry stands for; the first four have to be there. -/
def defaults : List (String × Value) :=
  [(boxesName, .array []), (recipientsName, .array []), (flagName, .integer 0),
    (affectedName, .map []), (execHashName, .bytes []), (mandatoryName, .array []),
    (groupIdName, .bytes [])]

def default? (name : String) : Option Value := defaults.lookup name

/-- Whether two maps say the same under a name. -/
inductive AlikeAt (name : String) (entries entries' : List (Value × Value)) : Prop
  | same {v : Value} (h : LastNamed name v entries) (h' : LastNamed name v entries')
  | neither (h : Unnamed name entries) (h' : Unnamed name entries')
  | onlyFirst {v : Value} (hv : default? name = some v) (h : LastNamed name v entries)
    (h' : Unnamed name entries')
  | onlySecond {v : Value} (hv : default? name = some v) (h : Unnamed name entries)
    (h' : LastNamed name v entries')

/-- Whether two maps say the same under all names. -/
def AlikeByName (entries entries' : List (Value × Value)) : Prop :=
  ∀ name ∈ names, AlikeAt name entries entries'

/-- What a map says under a name: the value of its last entry, else the default. -/
def valueAt (name : String) (entries : List (Value × Value)) : Option Value :=
  (lastOf? name entries).or (default? name)

theorem alikeAt_iff :
    AlikeAt name entries entries' ↔ valueAt name entries = valueAt name entries' := by
  unfold valueAt
  constructor
  · intro h
    cases h with
    | same h h' => rw [lastOf?_eq_some_iff.2 h, lastOf?_eq_some_iff.2 h']
    | neither h h' => rw [lastOf?_eq_none_iff.2 h, lastOf?_eq_none_iff.2 h']
    | onlyFirst hv h h' =>
      rw [lastOf?_eq_some_iff.2 h, lastOf?_eq_none_iff.2 h', hv]
      rfl
    | onlySecond hv h h' =>
      rw [lastOf?_eq_none_iff.2 h, lastOf?_eq_some_iff.2 h', hv]
      rfl
  · intro h
    cases hv : lastOf? name entries with
    | none =>
      cases hv' : lastOf? name entries' with
      | none => exact .neither (lastOf?_eq_none_iff.1 hv) (lastOf?_eq_none_iff.1 hv')
      | some v =>
        rw [hv, hv'] at h
        exact .onlySecond h (lastOf?_eq_none_iff.1 hv) (lastOf?_eq_some_iff.1 hv')
    | some v =>
      cases hv' : lastOf? name entries' with
      | none =>
        rw [hv, hv'] at h
        exact .onlyFirst h.symm (lastOf?_eq_some_iff.1 hv) (lastOf?_eq_none_iff.1 hv')
      | some v' =>
        rw [hv, hv'] at h
        cases h
        exact .same (lastOf?_eq_some_iff.1 hv) (lastOf?_eq_some_iff.1 hv')

theorem alikeByName_iff : AlikeByName entries entries' ↔
    ∀ name ∈ names, valueAt name entries = valueAt name entries' :=
  forall₂_congr fun _ _ => alikeAt_iff

/-! ## What is read -/

/-- A part that has to be there has no default. -/
theorem requiredBytes_congr (hname : default? name = none)
    (h : valueAt name entries = valueAt name entries') :
    requiredBytes entries name = requiredBytes entries' name := by
  unfold valueAt at h
  rw [hname, Option.or_none, Option.or_none] at h
  rw [requiredBytes, requiredBytes, h]

/-- What a part is by default is what its default value is read as. -/
theorem optional_eq {α : Type} {a : α} {expect : String → Value → Except EnclaveError α}
    (hname : default? name = some v) (hv : expect name v = .ok a) :
    optional entries name a expect = (valueAt name entries).elim (.ok a) (expect name) := by
  unfold optional valueAt
  rw [hname]
  cases lastOf? name entries with
  | none => exact hv.symm
  | some w => rfl

theorem optional_congr {α : Type} {a : α} {expect : String → Value → Except EnclaveError α}
    (hname : default? name = some v) (hv : expect name v = .ok a)
    (h : valueAt name entries = valueAt name entries') :
    optional entries name a expect = optional entries' name a expect := by
  rw [optional_eq hname hv, optional_eq hname hv, h]

/-- **Maps that say the same are read alike**, also where they are refused. -/
theorem ofEntries_congr (h : AlikeByName entries entries') :
    ofEntries entries = ofEntries entries' := by
  rw [alikeByName_iff] at h
  simp only [names, List.forall_mem_cons] at h
  obtain ⟨hsender, hcipherText, hnonce, hrecipientNonce, hboxes, hrecipients, hflag, haffected,
    hexecHash, hmandatory, hgroupId, _⟩ := h
  unfold ofEntries
  rw [requiredBytes_congr rfl hsender, requiredBytes_congr rfl hcipherText,
    requiredBytes_congr rfl hnonce, requiredBytes_congr rfl hrecipientNonce,
    optional_congr rfl rfl hboxes, optional_congr rfl rfl hrecipients, optional_congr rfl rfl hflag,
    optional_congr rfl rfl haffected, optional_congr rfl rfl hexecHash,
    optional_congr rfl rfl hmandatory, optional_congr rfl rfl hgroupId]

/-! ## Rearranging a map -/

/-- One change of a map that its payload does not depend on. -/
inductive Rearranges : List (Value × Value) → List (Value × Value) → Prop
  /-- Two entries with different keys change places. -/
  | swap (a b : List (Value × Value)) {e e' : Value × Value} (h : e.1 ≠ e'.1) :
    Rearranges (a ++ e :: e' :: b) (a ++ e' :: e :: b)
  /-- An entry comes in whose key is no name, or no text at all. -/
  | foreign (a b : List (Value × Value)) {e : Value × Value}
    (h : ∀ name ∈ names, e.1 ≠ .text name) : Rearranges (a ++ b) (a ++ e :: b)
  /-- An entry comes in before another one of its name. -/
  | repeated (a b : List (Value × Value)) {name : String} (v : Value) (h : ¬Unnamed name b) :
    Rearranges (a ++ b) (a ++ (.text name, v) :: b)
  /-- An entry comes in that says what its name stands for by default. -/
  | default (a b : List (Value × Value)) {name : String} {v : Value}
    (hv : default? name = some v) (h : Unnamed name (a ++ b)) :
    Rearranges (a ++ b) (a ++ (.text name, v) :: b)

theorem lastOf?_singleton_of_ne {e : Value × Value} (h : e.1 ≠ .text name) :
    lastOf? name [e] = none :=
  lastOf?_eq_none_iff.2 (List.forall_mem_singleton.2 h)

/-- An entry of another key does not matter to a name. -/
theorem valueAt_insert_of_ne {a b : List (Value × Value)} {e : Value × Value}
    (h : e.1 ≠ .text name) : valueAt name (a ++ e :: b) = valueAt name (a ++ b) := by
  have hcons : e :: b = [e] ++ b := rfl
  rw [valueAt, valueAt, hcons, lastOf?_append, lastOf?_append, lastOf?_append,
    lastOf?_singleton_of_ne h, Option.or_none]

theorem Rearranges.alikeByName (h : Rearranges entries entries') :
    AlikeByName entries entries' := by
  rw [alikeByName_iff]
  intro name hname
  cases h with
  | @swap a b e e' hne =>
    -- of two different keys one at least is not the name
    by_cases hkey : e.1 = .text name
    · have hkey' : e'.1 ≠ .text name := fun h => hne (hkey.trans h.symm)
      rw [valueAt_insert_of_ne (a := a) hkey', ← List.singleton_append, ← List.append_assoc,
        valueAt_insert_of_ne hkey', List.append_assoc, List.singleton_append]
    · rw [valueAt_insert_of_ne (a := a) hkey, ← List.singleton_append (l := e :: b),
        ← List.append_assoc, valueAt_insert_of_ne hkey, List.append_assoc, List.singleton_append]
  | foreign a b hforeign => exact (valueAt_insert_of_ne (hforeign name hname)).symm
  | @repeated a b s w hs =>
    by_cases hkey : s = name
    · subst hkey
      obtain ⟨u, hu⟩ := Option.ne_none_iff_exists'.1 fun hnone => hs (lastOf?_eq_none_iff.1 hnone)
      rw [valueAt, valueAt, lastOf?_append, lastOf?_append, lastOf?, hu]
      rfl
    · exact (valueAt_insert_of_ne fun h => hkey (Value.text.inj h)).symm
  | @default a b s w hv hs =>
    by_cases hkey : s = name
    · subst hkey
      obtain ⟨_, hb⟩ := List.forall_mem_append.1 hs
      have hlast : LastNamed s w (a ++ (.text s, w) :: b) := ⟨a, b, rfl, hb⟩
      exact alikeAt_iff.1 (.onlySecond hv hs hlast)
    · exact (valueAt_insert_of_ne fun h => hkey (Value.text.inj h)).symm

/-- However often a map is rearranged, there and back, it says the same. -/
theorem alikeByName_of_eqvGen (h : Relation.EqvGen Rearranges entries entries') :
    AlikeByName entries entries' := by
  induction h with
  | rel _ _ h => exact h.alikeByName
  | refl _ => exact alikeByName_iff.2 fun _ _ => rfl
  | symm _ _ _ ih =>
    rw [alikeByName_iff] at ih ⊢
    exact fun name hname => (ih name hname).symm
  | trans _ _ _ _ _ ih ih' =>
    rw [alikeByName_iff] at ih ih' ⊢
    exact fun name hname => (ih name hname).trans (ih' name hname)

/-! ## The whole payload -/

theorem decode_of_parse {b rest : Bytes} (hb : Cbor.parse b = .ok (v, rest)) :
    decode b = ofValue v := by
  rw [decode, hb]

/-- **Decoding reads by name only**: two byte strings of maps that say the same under every name are
decoded alike, to the same payload or with the same error. Maps that are rearranged do say the
same. -/
theorem decode_by_name {b b' rest rest' : Bytes}
    (hb : Cbor.parse b = .ok (.map entries, rest))
    (hb' : Cbor.parse b' = .ok (.map entries', rest')) :
    (AlikeByName entries entries' → decode b = decode b') ∧
      (Relation.EqvGen Rearranges entries entries' → decode b = decode b') := by
  have hdecode : AlikeByName entries entries' → decode b = decode b' := by
    intro h
    rw [decode_of_parse hb, decode_of_parse hb', ofValue, ofValue, ofEntries_congr h]
  exact ⟨hdecode, fun h => hdecode (alikeByName_of_eqvGen h)⟩

/-- The map of a payload back to front, without what is so by default, and with entries that are
overruled or that no name finds. -/
def shuffledEntries : List (Value × Value) :=
  (.integer 7, .null) :: (.text senderName, .null) :: (.text "memo", .bool true) ::
    ((entriesOf samplePayload).eraseIdx 9).reverse

/-- The shuffled map is read as the payload; a map with nothing but an entry that no name finds is
refused as the empty map is. -/
theorem decode_by_name_sample :
    decode (Value.map shuffledEntries).encode = .ok samplePayload ∧
    ∃ e, decode (Value.map []).encode = .error e ∧
      decode (Value.map [(.integer 7, .null)]).encode = .error e := by
  have hsized : samplePayload.Sized := by decide
  have hparse : ∀ {entries : List (Value × Value)}, (Value.map entries).Fits depthLimit →
      Cbor.parse (Value.map entries).encode = .ok (.map entries, []) := by
    intro entries h
    have hparse := parse_encode h []
    rwa [List.append_nil] at hparse
  have hinteger : ∀ depth, (Value.integer 7).Fits depth := fun _ => ⟨by decide, by decide⟩
  have htext : ∀ {s : String} (depth), (Bytes.ofText s).length < argumentLimit →
      (Value.text s).Fits depth := fun _ h => h
  constructor
  · have hfits : (Value.map (entriesOf samplePayload)).Fits depthLimit := fits_toValue hsized 254
    have hshuffled : (Value.map shuffledEntries).Fits depthLimit := by
      refine ⟨by decide, fitsEach_iff.2 ?_⟩
      simp only [shuffledEntries, List.forall_mem_cons]
      refine ⟨⟨hinteger _, trivial⟩, ⟨htext _ (by decide), trivial⟩, ⟨htext _ (by decide), trivial⟩,
        fun e he => ?_⟩
      exact fitsEach_iff.1 hfits.2 e (List.mem_of_mem_eraseIdx (List.mem_reverse.1 he))
    have halike : AlikeByName (entriesOf samplePayload) shuffledEntries := by
      rw [alikeByName_iff]
      simp only [names, List.forall_mem_cons]
      exact ⟨rfl, rfl, rfl, rfl, rfl, rfl, rfl, rfl, rfl, rfl, rfl, List.forall_mem_nil _⟩
    rw [← (decode_by_name (hparse hfits) (hparse hshuffled)).1 halike, ← toValue, ← encode,
      ← List.append_nil (encode _)]
    exact decode_encode hsized []
  · have hempty : (Value.map []).Fits depthLimit := ⟨by decide, trivial⟩
    have hforeign : (Value.map [(.integer 7, .null)]).Fits depthLimit :=
      ⟨by decide, fitsEach_iff.2 (List.forall_mem_singleton.2 ⟨hinteger _, trivial⟩)⟩
    have hkey : ∀ name ∈ names, Value.integer 7 ≠ .text name := by
      intro name _ h
      cases h
    have hrearranges : Relation.EqvGen Rearranges [] [(.integer 7, .null)] :=
      .rel _ _ (.foreign [] [] hkey)
    have hsame := (decode_by_name (hparse hempty) (hparse hforeign)).2 hrearranges
    exact ⟨_, rfl, hsame.symm⟩

end SealedTx.Codec.Named
