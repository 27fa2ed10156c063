import SealedTx.PrivacyGroup
import SealedTx.Proofs.PrivacyGroup.Rlp
import SealedTx.Proofs.Sorted

/-!
# Which groups share an id

An id is a hash of the members in byte order and of the seed behind them (`deriveId_eq`). Nothing
tells the seed from a member, so a group with a seed that is itself a key looks like the group
without a seed that has this key as one more member, provided that the key comes behind all others
(`SeedIsLastMember`). No other groups look alike (`idInput_eq_iff`): two groups with seeds differ in
what is hashed as soon as they differ in their members or seeds, and so do two groups without.

Seeds are as long as the prefix of a string allows (`Rlp.lengthLimit`).
-/

namespace SealedTx.PrivacyGroup

variable {members others : List PublicKey} {seed : Option Bytes}

/-! ## What ids are hashes of -/

theorem generateId_eq (members : List PublicKey) (seed : Option Bytes) :
    generateId members seed = keccak256 (idInput members seed) := rfl

/-- The ids by which members are looked up have a seed of their own. -/
theorem generateLookupId_eq (members : List PublicKey) :
    generateLookupId members = keccak256 (idInput members (some lookupSeed)) :=
  generateId_eq members (some lookupSeed)

/-- The seed takes part in the id of every group but a legacy one, also if it is empty. -/
theorem idSeed_eq (g : PrivacyGroup) :
    g.idSeed = if g.type = .legacy then none else some g.seed := by
  unfold idSeed
  cases g.type <;> rfl

/-- **The id of a group** is a hash of its members and, unless it is a legacy group, its seed. -/
theorem deriveId_eq (g : PrivacyGroup) :
    g.deriveId =
      ⟨keccak256 (idInput g.members (if g.type = .legacy then none else some g.seed))⟩ := by
  rw [deriveId, generateId_eq, idSeed_eq]

/-! ## The strings that are hashed -/

/-- The strings that an id is a hash of, in order. -/
def idItems (members : List PublicKey) (seed : Option Bytes) : List Bytes :=
  (SortedSet.ofList members).toList.map Key.bytes ++ seed.toList

theorem length_of_mem_idItems (h : ∀ s ∈ seed, s.length < Rlp.lengthLimit) :
    ∀ b ∈ idItems members seed, b.length < Rlp.lengthLimit := by
  intro b hb
  rcases List.mem_append.1 hb with hb | hb
  · obtain ⟨k, _, rfl⟩ := List.mem_map.1 hb
    rw [k.length_eq]
    decide
  · exact h b (Option.mem_toList.1 hb)

/-- Equal bytes are hashed only if equal strings are. -/
theorem idInput_eq_iff_idItems_eq {seed' : Option Bytes}
    (h : ∀ s ∈ seed, s.length < Rlp.lengthLimit) (h' : ∀ s ∈ seed', s.length < Rlp.lengthLimit) :
    idInput members seed = idInput others seed' ↔ idItems members seed = idItems others seed' :=
  ⟨Rlp.list_inj (length_of_mem_idItems h) (length_of_mem_idItems h'), congrArg Rlp.list⟩

theorem map_bytes_eq_iff {ks ls : List PublicKey} :
    ks.map Key.bytes = ls.map Key.bytes ↔ ks = ls :=
  List.map_inj_right fun _ _ h => ByteKeyed.key_injective h

/-! ## A seed in the place of a member -/

/-- Whether the seed of some members is a key that comes behind all of theirs, and is the one more
member that others have who have no seed. -/
def SeedIsLastMember (members : List PublicKey) (seed : Option Bytes)
    (others : List PublicKey) : Prop :=
  ∃ k : PublicKey, seed = some k.bytes ∧ (∀ m ∈ members, m.bytes < k.bytes) ∧
    ∀ m, m ∈ others ↔ m ∈ members ∨ m = k

/-- Members without a seed are hashed as the same strings as others with one exactly if the seed
stands in the place of the last member. -/
theorem idItems_none_eq_iff {s : Bytes} :
    idItems members none = idItems others (some s) ↔ SeedIsLastMember others (some s) members := by
  have hitems : idItems members none = (SortedSet.ofList members).toList.map Key.bytes :=
    List.append_nil _
  rw [hitems, idItems, Option.toList_some]
  constructor
  · intro h
    obtain ⟨front, last, hmembers, hfront, hlast⟩ := List.map_eq_append_iff.1 h
    obtain ⟨k, rfl, rfl⟩ := List.map_eq_singleton_iff.1 hlast
    obtain rfl := map_bytes_eq_iff.1 hfront
    refine ⟨k, rfl, fun m hm => ?_, fun m => ?_⟩
    · have hsorted := SortedSet.toList_pairwise (SortedSet.ofList members)
      rw [hmembers] at hsorted
      exact (List.pairwise_append.1 hsorted).2.2 m (SortedSet.mem_toList_ofList.2 hm) k
        (List.mem_singleton.2 rfl)
    · rw [← SortedSet.mem_toList_ofList, hmembers, List.mem_append, List.mem_singleton,
        SortedSet.mem_toList_ofList]
  · rintro ⟨k, hk, hlast, hmem⟩
    obtain rfl := Option.some.inj hk
    -- behind the others' members, in order, the key is in order too
    have hsorted : ((SortedSet.ofList others).toList ++ [k]).Pairwise fun a b =>
        ByteKeyed.key a < ByteKeyed.key b := by
      refine List.pairwise_append.2
        ⟨SortedSet.toList_pairwise _, List.pairwise_singleton _ _, fun m hm l hl => ?_⟩
      obtain rfl := List.mem_singleton.1 hl
      exact hlast m (SortedSet.mem_toList_ofList.1 hm)
    have hmembers : (SortedSet.ofList members).toList = (SortedSet.ofList others).toList ++ [k] := by
      refine SortedSet.eq_of_mem_iff (SortedSet.toList_pairwise _) hsorted fun m => ?_
      rw [SortedSet.mem_toList_ofList, List.mem_append, SortedSet.mem_toList_ofList,
        List.mem_singleton, hmem]
    rw [hmembers, List.map_append]
    rfl

/-- With a seed each, or without, the strings are those of the same members and the same seed. -/
theorem idItems_eq_iff_of_isSome_eq {seed' : Option Bytes} (h : seed.isSome = seed'.isSome) :
    idItems members seed = idItems others seed' ↔
      (∀ k, k ∈ members ↔ k ∈ others) ∧ seed = seed' := by
  rw [← SortedSet.toList_ofList_eq_iff, ← map_bytes_eq_iff]
  cases seed with
  | none =>
    obtain rfl : seed' = none := by simpa using h.symm
    simp [idItems]
  | some s =>
    obtain ⟨t, rfl⟩ := Option.isSome_iff_exists.1 h.symm
    simp [idItems, List.append_singleton_inj]

/-! ## Which groups share an id -/

/-- The key that has one byte all over. -/
def repeatedKey (d : UInt8) : PublicKey := ⟨List.replicate keySize d, List.length_replicate⟩

/-- A legacy group of two members. -/
def pairGroup : PrivacyGroup where
  members := [repeatedKey 1, repeatedKey 2]

/-- A group of the first of the two, with the key of the second for a seed. -/
def seededGroup : PrivacyGroup where
  members := [repeatedKey 1]
  seed := (repeatedKey 2).bytes
  type := .pantheon

/-- **Two groups that differ in members and seed share an id**, whatever the hash: a legacy group of
two members, and a group of one of them whose seed is the key of the other. -/
theorem pairGroup_shares_id :
    (¬ ∀ k, k ∈ pairGroup.members ↔ k ∈ seededGroup.members) ∧
      pairGroup.idSeed ≠ seededGroup.idSeed ∧
      idInput pairGroup.members pairGroup.idSeed =
        idInput seededGroup.members seededGroup.idSeed ∧
      pairGroup.deriveId = seededGroup.deriveId := by
  have hitems : idItems pairGroup.members pairGroup.idSeed =
      idItems seededGroup.members seededGroup.idSeed := by decide
  have hinput : idInput pairGroup.members pairGroup.idSeed =
      idInput seededGroup.members seededGroup.idSeed := congrArg Rlp.list hitems
  have hid : pairGroup.deriveId = seededGroup.deriveId :=
    congrArg (fun b => (⟨keccak256 b⟩ : GroupId)) hinput
  refine ⟨fun h => ?_, by decide, hinput, hid⟩
  exact absurd ((h (repeatedKey 2)).1 (by decide)) (by decide)

/-- **What two groups' ids are hashes of is equal** exactly if the groups have the same members and
the same seed, or one has no seed and the other's seed stands in the place of its last member. -/
theorem idInput_eq_iff {seed' : Option Bytes} (h : ∀ s ∈ seed, s.length < Rlp.lengthLimit)
    (h' : ∀ s ∈ seed', s.length < Rlp.lengthLimit) :
    idInput members seed = idInput others seed' ↔
      ((∀ k, k ∈ members ↔ k ∈ others) ∧ seed = seed') ∨
      (seed = none ∧ SeedIsLastMember others seed' members) ∨
      (seed' = none ∧ SeedIsLastMember members seed others) := by
  rw [idInput_eq_iff_idItems_eq h h']
  cases seed with
  | none =>
    cases seed' with
    | none => simp [idItems_eq_iff_of_isSome_eq, SeedIsLastMember]
    | some t => simp [idItems_none_eq_iff]
  | some s =>
    cases seed' with
    | none =>
      rw [eq_comm, idItems_none_eq_iff]
      simp
    | some t => simp [idItems_eq_iff_of_isSome_eq]

/-- The two groups that share an id, and a seed that has no key's length: even the empty one is not
the same as none. -/
theorem idInput_eq_iff_pairGroup :
    idInput pairGroup.members none = idInput seededGroup.members (some seededGroup.seed) ∧
      idInput pairGroup.members none ≠ idInput pairGroup.members (some []) := by
  have hnone : ∀ s ∈ (none : Option Bytes), s.length < Rlp.lengthLimit := by simp
  have hseed : ∀ s ∈ some seededGroup.seed, s.length < Rlp.lengthLimit := by decide
  have hempty : ∀ s ∈ some ([] : Bytes), s.length < Rlp.lengthLimit := by decide
  refine ⟨(idInput_eq_iff hnone hseed).2 (.inr (.inl ⟨rfl, ?_⟩)), fun h => ?_⟩
  · exact ⟨repeatedKey 2, rfl, by decide, by simp [pairGroup, seededGroup]⟩
  · rcases (idInput_eq_iff hnone hempty).1 h with ⟨_, hs⟩ | ⟨_, k, hk, _⟩ | ⟨hs, _⟩
    · exact nomatch hs
    · have hlength := k.length_eq
      rw [← Option.some.inj hk] at hlength
      exact absurd hlength (by decide)
    · exact nomatch hs

end SealedTx.PrivacyGroup
