import SealedTx.Proofs.PrivacyGroup.Identity

/-!
# Nodes agree on the id of a group

Nodes that know the same members derive the same id, in whatever order they know them and however
often they were told of one, since the members are hashed in byte order and each once
(`idInput_eq`). Under one seed, be it as long as it likes, other members are other bytes to hash
(`idInput_eq_idInput_iff`). And a seed that has not the length of a key is never taken for a member,
so what is hashed to look members up is hashed for no group without a seed (`idInput_ne_of_length`).
-/

namespace SealedTx.PrivacyGroup

variable {members others : List PublicKey} {seed : Option Bytes}

/-! ## The same members -/

theorem length_map_bytes {ks : List PublicKey} :
    ∀ b ∈ ks.map Key.bytes, b.length < Rlp.lengthLimit := by
  intro b hb
  obtain ⟨k, _, rfl⟩ := List.mem_map.1 hb
  rw [k.length_eq]
  decide

/-- What is hashed are the members in increasing order, and the seed. -/
theorem idInput_eq {ks : List PublicKey} (hsorted : ks.Pairwise fun a b => a.bytes < b.bytes)
    (hks : ∀ k, k ∈ ks ↔ k ∈ members) :
    idInput members seed = Rlp.list (ks.map Key.bytes ++ seed.toList) := by
  have heq : (SortedSet.ofList members).toList = ks := by
    refine SortedSet.eq_of_mem_iff (SortedSet.toList_pairwise _) hsorted fun k => ?_
    rw [SortedSet.mem_toList_ofList, hks]
  unfold idInput
  rw [heq]

theorem exists_sorted_members (members : List PublicKey) :
    ∃ ks : List PublicKey, ks.Pairwise (fun a b => a.bytes < b.bytes) ∧
      ∀ k, k ∈ ks ↔ k ∈ members :=
  ⟨_, SortedSet.toList_pairwise (SortedSet.ofList members), fun _ => SortedSet.mem_toList_ofList⟩

/-- Under one seed the same bytes are hashed for the same members only. The seed stands behind the
members in both, so it may have any length. -/
theorem idInput_eq_idInput_iff :
    idInput members seed = idInput others seed ↔ ∀ k, k ∈ members ↔ k ∈ others := by
  rw [← SortedSet.toList_ofList_eq_iff]
  constructor
  · intro h
    have hbody := Rlp.flatMap_string_eq_of_list_eq h
    rw [List.flatMap_append, List.flatMap_append] at hbody
    have hkeys := Rlp.flatMap_string_inj length_map_bytes length_map_bytes
      (List.append_cancel_right hbody)
    exact map_bytes_eq_iff.1 hkeys
  · intro h
    unfold idInput
    rw [h]

/-! ## A seed that is no key -/

/-- Without a seed only strings of the length of a key are hashed. -/
theorem idInput_ne_of_length {s : Bytes} (hs : s.length < Rlp.lengthLimit)
    (hlength : s.length ≠ keySize) : idInput members (some s) ≠ idInput others none := by
  intro h
  have hseed : ∀ t ∈ some s, t.length < Rlp.lengthLimit := by simpa using hs
  have hitems := (idInput_eq_iff_idItems_eq hseed (by simp)).1 h
  have hmem : s ∈ idItems members (some s) := by simp [idItems]
  rw [hitems] at hmem
  obtain ⟨k, _, rfl⟩ : ∃ k ∈ (SortedSet.ofList others).toList, Key.bytes k = s := by
    simpa [idItems] using hmem
  exact hlength k.length_eq

/-! ## Agreement -/

/-- A legacy group has the id of its members without a seed. -/
theorem deriveId_of_legacy {g : PrivacyGroup} (hg : g.type = .legacy) :
    g.deriveId = ⟨keccak256 (idInput g.members none)⟩ := by
  rw [deriveId_eq, if_pos hg]

/-- **Nodes agree on an id if they know the same members**, and only then do they hash the same
bytes: the list of the members in increasing byte order, each once, and the seed if there is one.
The id by which members are looked up is a hash of them with a seed of its own, and what is hashed
for it is hashed for no legacy group. -/
theorem ids_agree (members others : List PublicKey) (seed : Option Bytes) :
    generateId members seed = keccak256 (idInput members seed) ∧
    (idInput members seed = idInput others seed ↔ ∀ k, k ∈ members ↔ k ∈ others) ∧
    ((∀ k, k ∈ members ↔ k ∈ others) → generateId members seed = generateId others seed) ∧
    (∃ ks : List PublicKey, ks.Pairwise (fun a b => a.bytes < b.bytes) ∧
      (∀ k, k ∈ ks ↔ k ∈ members) ∧
      idInput members seed = Rlp.list (ks.map Key.bytes ++ seed.toList)) ∧
    generateLookupId members = keccak256 (idInput members (some lookupSeed)) ∧
    ∀ g : PrivacyGroup, g.type = .legacy →
      g.deriveId = ⟨keccak256 (idInput g.members none)⟩ ∧
      idInput members (some lookupSeed) ≠ idInput g.members none := by
  refine ⟨generateId_eq _ _, idInput_eq_idInput_iff, fun h => ?_, ?_, generateLookupId_eq _,
    fun g hg => ⟨deriveId_of_legacy hg, ?_⟩⟩
  · rw [generateId_eq, generateId_eq, idInput_eq_idInput_iff.2 h]
  · obtain ⟨ks, hsorted, hks⟩ := exists_sorted_members members
    exact ⟨ks, hsorted, hks, idInput_eq hsorted hks⟩
  · exact idInput_ne_of_length (by decide) (by decide)

/-- One node knows two members the other way round and one of them twice. Neither looks them up by
the id that they have as a group. -/
theorem ids_agree_pairGroup :
    generateId [repeatedKey 2, repeatedKey 1, repeatedKey 2] none =
        generateId pairGroup.members none ∧
      idInput [repeatedKey 2] none ≠ idInput pairGroup.members none ∧
      pairGroup.type = .legacy ∧
      pairGroup.deriveId = ⟨keccak256 (idInput pairGroup.members none)⟩ ∧
      generateLookupId pairGroup.members =
        keccak256 (idInput pairGroup.members (some lookupSeed)) ∧
      idInput pairGroup.members (some lookupSeed) ≠ idInput pairGroup.members none := by
  have hmembers : ∀ k, k ∈ [repeatedKey 2, repeatedKey 1, repeatedKey 2] ↔
      k ∈ pairGroup.members := by
    intro k
    simp only [pairGroup, List.mem_cons, List.not_mem_nil, or_false]
    tauto
  obtain ⟨_, _, hsame, _⟩ := ids_agree [repeatedKey 2, repeatedKey 1, repeatedKey 2]
    pairGroup.members none
  obtain ⟨_, hiff, _⟩ := ids_agree [repeatedKey 2] pairGroup.members none
  obtain ⟨_, _, _, _, hlookup, hlegacy⟩ := ids_agree pairGroup.members [] none
  obtain ⟨hid, hne⟩ := hlegacy pairGroup rfl
  refine ⟨hsame hmembers, fun h => ?_, rfl, hid, hlookup, hne⟩
  have hfirst := (hiff.1 h (repeatedKey 1)).2
  exact absurd (hfirst (by decide)) (by decide)

end SealedTx.PrivacyGroup
