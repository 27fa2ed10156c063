import Mathlib.Data.List.Induction
import Mathlib.Data.List.Nodup
import SealedTx.Enclave.KeyTable
import SealedTx.Proofs.Outcome
import SealedTx.Proofs.Sorted

/-!
# Keys that a table keeps

A table is asked in four ways whether it keeps a key: by the flag, by whether there is a private
key, by its list of public keys, and for the private key itself. All four agree, in every table
(`isManaged_iff`, `hasPrivateKey_iff`, `exists_privateKey_iff`).

A table is made of pairs exactly if there is one and no public key comes twice. It then keeps just
these pairs (`Keeps`), and whatever it is asked it tells by them (`Answers`). Else the public key
that is blamed is the first one that came before.
-/

namespace SealedTx.KeyTable

open Outcome

variable {t : KeyTable} {k : PublicKey}

theorem publicKeys_pairwise (t : KeyTable) :
    t.publicKeys.Pairwise fun a b => ByteKeyed.key a < ByteKeyed.key b :=
  t.pairs.keys_pairwise

theorem isManaged_iff : t.isManaged k = true ↔ k ∈ t.publicKeys := SortedMap.contains_iff

/-- The table has a private key for exactly the keys that it keeps. -/
theorem exists_privateKey_iff : (∃ pk, t.privateKey k = .ok pk) ↔ t.isManaged k = true := by
  rw [isManaged_iff, publicKeys, ← SortedMap.get?_isSome_iff, privateKey]
  cases t.pairs.get? k with
  | none => simp
  | some pk => simp

/-- The error for a key that the table does not keep. -/
theorem privateKey_of_not_managed (h : t.isManaged k = false) :
    t.privateKey k = .error (.keyNotFound k) := by
  have hnone : t.pairs.get? k = none := by
    rw [← Option.not_isSome_iff_eq_none, SortedMap.get?_isSome_iff]
    intro hk
    rw [isManaged_iff.2 hk] at h
    exact nomatch h
  rw [privateKey, hnone]

theorem privateKey_eq_error_iff {e : EnclaveError} :
    t.privateKey k = .error e ↔ t.isManaged k = false ∧ e = .keyNotFound k := by
  cases hk : t.isManaged k with
  | false => simp [privateKey_of_not_managed hk, eq_comm]
  | true =>
    obtain ⟨pk, hpk⟩ := exists_privateKey_iff.2 hk
    simp [hpk]

theorem privateKey_eq_ok_iff {pk : PrivateKey} :
    t.privateKey k = .ok pk ↔ t.pairs.get? k = some pk := by
  rw [privateKey]
  cases t.pairs.get? k with
  | none => simp
  | some pk' => simp

/-! ## Making a table -/

/-- What a table keeps that is made of pairs and of the keys that get a copy. -/
structure Keeps (t : KeyTable) (pairs : List KeyPair) (forwarding : List PublicKey) : Prop where
  defaultKey : pairs.head?.map (·.publicKey) = some t.defaultKey
  managed : ∀ k, t.isManaged k = true ↔ k ∈ pairs.map (·.publicKey)
  privateKey : ∀ p ∈ pairs, t.privateKey p.publicKey = .ok p.privateKey
  forwarding : ∀ k, k ∈ t.forwarding.toList ↔ k ∈ forwarding

/-- The first item of a list that came before. -/
def FirstRepeat {α : Type} (l : List α) (a : α) : Prop :=
  ∃ before behind, l = before ++ a :: behind ∧ before.Nodup ∧ a ∈ before

theorem nodup_or_firstRepeat {α : Type} (l : List α) : l.Nodup ∨ ∃ a, FirstRepeat l a := by
  induction l using List.reverseRecOn with
  | nil => exact .inl .nil
  | append_singleton l a ih =>
    rcases ih with hl | ⟨b, before, behind, rfl, hbefore, hb⟩
    · by_cases ha : a ∈ l
      · exact .inr ⟨a, l, [], rfl, hl, ha⟩
      · refine .inl (List.nodup_append.2 ⟨hl, List.nodup_singleton a, ?_⟩)
        rintro x hx _ hy rfl
        exact ha (List.mem_singleton.1 hy ▸ hx)
    · exact .inr ⟨b, before, behind ++ [a], by simp, hbefore, hb⟩

theorem FirstRepeat.not_nodup {α : Type} {l : List α} {a : α} (h : FirstRepeat l a) : ¬l.Nodup := by
  obtain ⟨before, behind, rfl, _, ha⟩ := h
  intro h
  exact (List.nodup_append.1 h).2.2 a ha a List.mem_cons_self rfl

variable {pairs : List KeyPair} {forwarding : List PublicKey}

/-- Pairs with new public keys are added, one by one. -/
theorem addPairs_append (behind : List KeyPair) :
    ∀ {before : List KeyPair} {m : SortedMap PublicKey PrivateKey},
      (before.map (·.publicKey)).Nodup → (∀ k ∈ before.map (·.publicKey), k ∉ m.keys) →
      addPairs m (before ++ behind) =
        addPairs ((before.map fun p => (p.publicKey, p.privateKey)).foldl
          (fun m e => m.insert e.1 e.2) m) behind
  | [], m, _, _ => rfl
  | p :: before, m, hnodup, hnew => by
    rw [List.map_cons, List.nodup_cons] at hnodup
    rw [List.map_cons, List.forall_mem_cons] at hnew
    have hnone : m.get? p.publicKey = none := by
      rw [← Option.not_isSome_iff_eq_none, SortedMap.get?_isSome_iff]
      exact hnew.1
    rw [List.cons_append, addPairs, hnone, List.map_cons, List.foldl_cons]
    refine addPairs_append behind hnodup.2 fun k hk => ?_
    rw [SortedMap.mem_keys_insert, not_or]
    exact ⟨fun he => hnodup.1 (he ▸ hk), hnew.2 k hk⟩

theorem addPairs_of_nodup (h : (pairs.map (·.publicKey)).Nodup) :
    addPairs .empty pairs = .ok (.ofList (pairs.map fun p => (p.publicKey, p.privateKey))) := by
  have happend := addPairs_append [] h (m := .empty) fun _ _ => List.not_mem_nil
  rwa [List.append_nil] at happend

theorem addPairs_of_firstRepeat (h : FirstRepeat (pairs.map (·.publicKey)) k) :
    addPairs .empty pairs = .error (.value (.alreadyExists "key pair" k.toBase64)) := by
  obtain ⟨before, behind, hpairs, hnodup, hk⟩ := h
  obtain ⟨before, rest, rfl, rfl, hrest⟩ := List.map_eq_append_iff.1 hpairs
  obtain ⟨p, behind, rfl, rfl, rfl⟩ := List.map_eq_cons_iff.1 hrest
  have hadded : p.publicKey ∈ ((before.map fun p => (p.publicKey, p.privateKey)).foldl
      (fun m e => m.insert e.1 e.2) (.empty : SortedMap PublicKey PrivateKey)).keys := by
    rw [SortedMap.mem_keys_foldl_insert, List.map_map]
    exact .inr hk
  obtain ⟨pk, hpk⟩ := Option.isSome_iff_exists.1 (SortedMap.get?_isSome_iff.2 hadded)
  rw [addPairs_append _ hnodup fun _ _ => List.not_mem_nil, addPairs, hpk]

/-- **A table keeps the pairs that it is made of**, and the first one is the default. -/
theorem ofPairs_of_nodup (forwarding : List PublicKey) (hne : pairs ≠ [])
    (h : (pairs.map (·.publicKey)).Nodup) :
    ∃ t, ofPairs pairs forwarding = .ok t ∧ t.Keeps pairs forwarding := by
  cases pairs with
  | nil => exact absurd rfl hne
  | cons first rest =>
    have hkeys : ((first :: rest).map fun p => (p.publicKey, p.privateKey)).map (·.1) =
        (first :: rest).map (·.publicKey) := by
      rw [List.map_map]
      rfl
    rw [ofPairs, addPairs_of_nodup h]
    refine ⟨_, rfl, rfl, fun k => ?_, fun p hp => ?_, fun k => SortedSet.mem_toList_ofList⟩
    · rw [isManaged_iff, publicKeys, SortedMap.mem_keys_ofList, hkeys]
    · rw [privateKey_eq_ok_iff]
      exact SortedMap.get?_ofList_of_nodup (hkeys ▸ h)
        (List.mem_map_of_mem (f := fun p : KeyPair => (p.publicKey, p.privateKey)) hp)

theorem ofPairs_of_firstRepeat (h : FirstRepeat (pairs.map (·.publicKey)) k) :
    ofPairs pairs forwarding = .error (.value (.alreadyExists "key pair" k.toBase64)) := by
  cases pairs with
  | nil =>
    obtain ⟨before, behind, hnil, _⟩ := h
    cases before <;> cases hnil
  | cons first rest =>
    rw [ofPairs, addPairs_of_firstRepeat h]
    rfl

/-! ## Whether there is a table -/

theorem exists_ofPairs_iff : (∃ t, ofPairs pairs forwarding = .ok t) ↔
    pairs ≠ [] ∧ (pairs.map (·.publicKey)).Nodup := by
  constructor
  · rintro ⟨t, ht⟩
    refine ⟨?_, ?_⟩
    · rintro rfl
      cases ht
    · rcases nodup_or_firstRepeat (pairs.map (·.publicKey)) with hnodup | ⟨k, hk⟩
      · exact hnodup
      · rw [ofPairs_of_firstRepeat hk] at ht
        cases ht
  · rintro ⟨hne, hnodup⟩
    obtain ⟨t, ht, _⟩ := ofPairs_of_nodup forwarding hne hnodup
    exact ⟨t, ht⟩

theorem keeps_of_ofPairs (h : ofPairs pairs forwarding = .ok t) : t.Keeps pairs forwarding := by
  obtain ⟨hne, hnodup⟩ := exists_ofPairs_iff.1 ⟨t, h⟩
  obtain ⟨t', ht', hkeeps⟩ := ofPairs_of_nodup forwarding hne hnodup
  rw [h] at ht'
  cases ht'
  exact hkeeps

/-- There is no table for want of pairs, or for a public key that came before. -/
theorem ofPairs_eq_error_iff {e : EnclaveError} : ofPairs pairs forwarding = .error e ↔
    pairs = [] ∧ e = .value (.invalidInput "keys" "at least one key pair is required") ∨
      ∃ k, FirstRepeat (pairs.map (·.publicKey)) k ∧
        e = .value (.alreadyExists "key pair" k.toBase64) := by
  constructor
  · intro h
    by_cases hne : pairs = []
    · subst hne
      cases h
      exact .inl ⟨rfl, rfl⟩
    · rcases nodup_or_firstRepeat (pairs.map (·.publicKey)) with hnodup | ⟨k, hk⟩
      · obtain ⟨t, ht⟩ := exists_ofPairs_iff.2 ⟨hne, hnodup⟩
        rw [ht] at h
        cases h
      · rw [ofPairs_of_firstRepeat hk] at h
        cases h
        exact .inr ⟨k, hk, rfl⟩
  · rintro (⟨rfl, rfl⟩ | ⟨k, hk, rfl⟩)
    · rfl
    · exact ofPairs_of_firstRepeat hk

/-! ## What a table tells -/

/-- There is a private key just for the keys that the table lists. -/
theorem hasPrivateKey_iff : t.hasPrivateKey k = true ↔ k ∈ t.publicKeys := by
  rw [← isManaged_iff, ← exists_privateKey_iff, hasPrivateKey]
  cases t.privateKey k with
  | error e => simp [Except.isOk, Except.toBool]
  | ok pk => simp [Except.isOk, Except.toBool]

/-- If no public key comes twice, there is one pair with that of a pair. -/
theorem filter_publicKey_eq (hnodup : (pairs.map (·.publicKey)).Nodup) {p : KeyPair}
    (hp : p ∈ pairs) : pairs.filter (fun q => q.publicKey = p.publicKey) = [p] := by
  induction pairs with
  | nil => cases hp
  | cons q rest ih =>
    rw [List.map_cons, List.nodup_cons] at hnodup
    obtain ⟨hq, hrest⟩ := hnodup
    rcases List.mem_cons.1 hp with rfl | hp
    · have hnone : rest.filter (fun q => q.publicKey = p.publicKey) = [] := by
        refine List.filter_eq_nil_iff.2 fun x hx he => hq ?_
        rw [← of_decide_eq_true he]
        exact List.mem_map_of_mem hx
      rw [List.filter_cons_of_pos (by simp), hnone]
    · have hne : q.publicKey ≠ p.publicKey := fun he => hq (he ▸ List.mem_map_of_mem hp)
      rw [List.filter_cons_of_neg (by simpa using hne), ih hrest hp]

section Keeps

variable (h : t.Keeps pairs forwarding)

include h

theorem Keeps.mem_publicKeys_iff : k ∈ t.publicKeys ↔ k ∈ pairs.map (·.publicKey) := by
  rw [← isManaged_iff, h.managed]

theorem Keeps.isManaged_defaultKey : t.isManaged t.defaultKey = true := by
  obtain ⟨p, hp, hdefault⟩ := Option.map_eq_some_iff.1 h.defaultKey
  rw [h.managed, ← hdefault]
  exact List.mem_map_of_mem (List.mem_of_mem_head? hp)

theorem Keeps.size_eq (hnodup : (pairs.map (·.publicKey)).Nodup) : t.size = pairs.length := by
  have hperm : t.publicKeys.Perm (pairs.map (·.publicKey)) :=
    (List.perm_ext_iff_of_nodup t.pairs.keys_nodup hnodup).2 fun _ => h.mem_publicKeys_iff
  have hlength := hperm.length_eq
  rwa [publicKeys, SortedMap.keys, List.length_map, List.length_map] at hlength

theorem Keeps.privateKey_eq_ok_iff (hnodup : (pairs.map (·.publicKey)).Nodup) {pk : PrivateKey} :
    t.privateKey k = .ok pk ↔ pairs.filter (fun p => p.publicKey = k) = [⟨k, pk⟩] := by
  constructor
  · intro hpk
    have hk : t.isManaged k = true := exists_privateKey_iff.1 ⟨pk, hpk⟩
    obtain ⟨p, hp, rfl⟩ := List.mem_map.1 ((h.managed k).1 hk)
    rw [h.privateKey p hp] at hpk
    cases hpk
    exact filter_publicKey_eq hnodup hp
  · intro hfilter
    have hmem : (⟨k, pk⟩ : KeyPair) ∈ pairs.filter fun p => p.publicKey = k := by simp [hfilter]
    exact h.privateKey _ (List.mem_filter.1 hmem).1

end Keeps

/-- What a table that is made of pairs, and of the keys that get a copy, tells of itself and of
every key. -/
structure Answers (t : KeyTable) (pairs : List KeyPair) (forwarding : List PublicKey) : Prop where
  defaultKey : pairs.head?.map (·.publicKey) = some t.defaultKey
  default_managed : t.isManaged t.defaultKey = true
  publicKeys : ∀ k, k ∈ t.publicKeys ↔ k ∈ pairs.map (·.publicKey)
  publicKeys_ordered : t.publicKeys.Pairwise fun a b => ByteKeyed.key a < ByteKeyed.key b
  size : t.size = pairs.length
  forwarding : ∀ k, k ∈ t.forwarding.toList ↔ k ∈ forwarding
  isManaged : ∀ k, t.isManaged k = true ↔ k ∈ t.publicKeys
  hasPrivateKey : ∀ k, t.hasPrivateKey k = true ↔ k ∈ t.publicKeys
  exists_privateKey : ∀ k, (∃ pk, t.privateKey k = .ok pk) ↔ k ∈ t.publicKeys
  privateKey : ∀ k pk, t.privateKey k = .ok pk ↔
    pairs.filter (fun p => p.publicKey = k) = [⟨k, pk⟩]
  keyNotFound : ∀ k e, t.privateKey k = .error e ↔ k ∉ t.publicKeys ∧ e = .keyNotFound k

theorem answers_of_ofPairs (h : ofPairs pairs forwarding = .ok t) :
    t.Answers pairs forwarding := by
  have hkeeps := keeps_of_ofPairs h
  obtain ⟨_, hnodup⟩ := exists_ofPairs_iff.1 ⟨t, h⟩
  exact {
    defaultKey := hkeeps.defaultKey
    default_managed := hkeeps.isManaged_defaultKey
    publicKeys := fun _ => hkeeps.mem_publicKeys_iff
    publicKeys_ordered := t.publicKeys_pairwise
    size := hkeeps.size_eq hnodup
    forwarding := hkeeps.forwarding
    isManaged := fun _ => isManaged_iff
    hasPrivateKey := fun _ => hasPrivateKey_iff
    exists_privateKey := fun _ => exists_privateKey_iff.trans isManaged_iff
    privateKey := fun _ _ => hkeeps.privateKey_eq_ok_iff hnodup
    keyNotFound := fun k e => by
      rw [privateKey_eq_error_iff, ← isManaged_iff, Bool.not_eq_true] }

/-- **A table is what its pairs make it.** There is one exactly if there is a pair and no public key
comes twice, and each want has an error of its own; the public key that is named is the first one
that came before. The table answers by its pairs, however it is asked. -/
theorem ofPairs_exact (pairs : List KeyPair) (forwarding : List PublicKey) :
    ((∃ t, ofPairs pairs forwarding = .ok t) ↔
      pairs ≠ [] ∧ (pairs.map (·.publicKey)).Nodup) ∧
    (∀ e, ofPairs pairs forwarding = .error e ↔
      pairs = [] ∧ e = .value (.invalidInput "keys" "at least one key pair is required") ∨
        ∃ k, FirstRepeat (pairs.map (·.publicKey)) k ∧
          e = .value (.alreadyExists "key pair" k.toBase64)) ∧
    ∀ t, ofPairs pairs forwarding = .ok t → t.Answers pairs forwarding :=
  ⟨exists_ofPairs_iff, fun _ => ofPairs_eq_error_iff, fun _ => answers_of_ofPairs⟩

/-- A pair whose public key comes after that of `lowPair`. -/
def highPair : KeyPair := ⟨⟨List.replicate 32 5, rfl⟩, ⟨List.replicate 32 105, rfl⟩⟩

/-- A pair whose public key comes before that of `highPair`. -/
def lowPair : KeyPair := ⟨⟨List.replicate 32 4, rfl⟩, ⟨List.replicate 32 104, rfl⟩⟩

/-- Two pairs make a table: it lists the lesser public key first, but the other one is its default.
With one of them twice there is no table. -/
theorem ofPairs_exact_twoPairs :
    (∃ t, ofPairs [highPair, lowPair] [lowPair.publicKey] = .ok t ∧
      t.Answers [highPair, lowPair] [lowPair.publicKey] ∧
      t.publicKeys = [lowPair.publicKey, highPair.publicKey] ∧
      t.defaultKey = highPair.publicKey) ∧
    ofPairs [highPair, lowPair, highPair] [] =
      .error (.value (.alreadyExists "key pair" highPair.publicKey.toBase64)) := by
  constructor
  · obtain ⟨hiff, _, hanswers⟩ := ofPairs_exact [highPair, lowPair] [lowPair.publicKey]
    obtain ⟨t, ht⟩ := hiff.2 ⟨nofun, by decide⟩
    refine ⟨t, ht, hanswers t ht, ?_⟩
    cases ht
    decide
  · obtain ⟨_, herror, _⟩ := ofPairs_exact [highPair, lowPair, highPair] []
    refine (herror _).2 (.inr ⟨highPair.publicKey, ?_, rfl⟩)
    exact ⟨[highPair.publicKey, lowPair.publicKey], [], rfl, by decide, by decide⟩

end SealedTx.KeyTable
