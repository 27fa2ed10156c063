import Mathlib.Data.List.Sort
import SealedTx.Sorted

/-!
# What sorted maps hold

A map is determined by its entries, and a wire format writes just these. So the two facts that
reading back rests on are about the list of entries: putting an entry behind all others adds it at
the end (`insertEntry_of_lt`), hence a map made of its own entries, in their order, is the map
itself (`ofList_entries`).

Looking up a key finds something exactly if the key is among the keys (`get?_isSome_iff`), and it
finds the value that the key's entry has (`get?_eq_some_iff`). In a map that is made of a list that
is the last value the list has for it (`get?_ofList_eq_some_iff`).

A set is determined by its members, in whatever order and however often they were put in
(`SortedSet.eq_of_mem_iff`, `SortedSet.mem_toList_ofList`).
-/

namespace SealedTx

variable {κ ν : Type} [ByteKeyed κ]

open ByteKeyed (key)

namespace SortedMap

/-! ## Entries in order -/

/-- An entry whose key comes after all others goes to the end. -/
theorem insertEntry_of_lt {k : κ} {v : ν} {l : List (κ × ν)}
    (h : ∀ e ∈ l, key e.1 < key k) : insertEntry k v l = l ++ [(k, v)] := by
  induction l with
  | nil => rfl
  | cons e rest ih =>
    have he : key e.1 < key k := h e List.mem_cons_self
    rw [insertEntry, if_neg (List.lt_asymm he), if_pos he,
      ih fun x hx => h x (List.mem_cons_of_mem _ hx), List.cons_append]

/-- Entries that come in order, all behind those of a map, are appended to it. -/
theorem entries_foldl_insert (l : List (κ × ν)) : ∀ m : SortedMap κ ν,
    (m.entries ++ l).Pairwise (fun a b => key a.1 < key b.1) →
    (l.foldl (fun m e => m.insert e.1 e.2) m).entries = m.entries ++ l := by
  induction l with
  | nil => simp
  | cons e rest ih =>
    intro m h
    -- the first entry comes behind all those of the map and before all others
    have he : ∀ x ∈ m.entries, key x.1 < key e.1 := fun x hx =>
      (List.pairwise_append.1 h).2.2 x hx e List.mem_cons_self
    have hm : (m.insert e.1 e.2).entries = m.entries ++ [e] := insertEntry_of_lt he
    rw [List.foldl_cons, ih _ (by rw [hm]; simpa using h), hm, List.append_assoc,
      List.singleton_append]

theorem entries_ofList {l : List (κ × ν)} (h : l.Pairwise fun a b => key a.1 < key b.1) :
    (ofList l).entries = l :=
  entries_foldl_insert l empty h

/-- **The entries of a map make the map.** -/
@[simp] theorem ofList_entries (m : SortedMap κ ν) : ofList m.entries = m :=
  ext (entries_ofList m.sorted)

theorem keys_pairwise (m : SortedMap κ ν) : m.keys.Pairwise fun a b => key a < key b :=
  List.pairwise_map.2 m.sorted

/-- No key comes twice. -/
theorem keys_nodup (m : SortedMap κ ν) : m.keys.Nodup := by
  refine m.keys_pairwise.imp fun {a b} h (e : a = b) => ?_
  rw [e] at h
  exact List.lt_irrefl _ h

/-! ## Looking up -/

theorem mem_keys_iff {m : SortedMap κ ν} {k : κ} : k ∈ m.keys ↔ ∃ v, (k, v) ∈ m.entries := by
  simp [keys]

/-- A value is found exactly for the keys of the map. -/
theorem get?_isSome_iff {m : SortedMap κ ν} {k : κ} : (m.get? k).isSome ↔ k ∈ m.keys := by
  rw [get?, Option.isSome_map, List.find?_isSome]
  constructor
  · rintro ⟨e, he, hk⟩
    have hk : e.1 = k := ByteKeyed.key_injective (by simpa using hk)
    exact mem_keys_iff.2 ⟨e.2, hk ▸ he⟩
  · intro h
    obtain ⟨v, hv⟩ := mem_keys_iff.1 h
    exact ⟨(k, v), hv, by simp⟩

theorem contains_iff {m : SortedMap κ ν} {k : κ} : m.contains k = true ↔ k ∈ m.keys :=
  get?_isSome_iff

/-- A key has one value. -/
theorem eq_of_mem_entries {m : SortedMap κ ν} {k : κ} {v w : ν} (hv : (k, v) ∈ m.entries)
    (hw : (k, w) ∈ m.entries) : v = w :=
  (Prod.mk.inj (List.inj_on_of_nodup_map m.keys_nodup hv hw rfl)).2

theorem get?_eq_some_iff {m : SortedMap κ ν} {k : κ} {v : ν} :
    m.get? k = some v ↔ (k, v) ∈ m.entries := by
  have hget : ∀ {w : ν}, m.get? k = some w → (k, w) ∈ m.entries := by
    intro w h
    obtain ⟨e, he, rfl⟩ := Option.map_eq_some_iff.1 h
    have hk : e.1 = k := ByteKeyed.key_injective (by simpa using List.find?_some he)
    rw [← hk]
    exact List.mem_of_find?_eq_some he
  constructor
  · exact hget
  · intro h
    obtain ⟨w, hw⟩ := Option.isSome_iff_exists.1 (get?_isSome_iff.2 (mem_keys_iff.2 ⟨v, h⟩))
    rw [hw, eq_of_mem_entries h (hget hw)]

/-! ## Keys of a map that is made of a list -/

theorem mem_map_fst_insertEntry {k k' : κ} {v : ν} {l : List (κ × ν)} :
    k' ∈ (insertEntry k v l).map (·.1) ↔ k' = k ∨ k' ∈ l.map (·.1) := by
  induction l with
  | nil => simp [insertEntry]
  | cons e rest ih =>
    unfold insertEntry
    split
    · simp
    · next hge =>
      split
      · rw [List.map_cons, List.mem_cons, ih, List.map_cons, List.mem_cons]
        tauto
      · -- neither key is less, so the entry that gives way has the key
        next hle =>
        have he : e.1 = k := ByteKeyed.key_injective
          (List.le_antisymm (List.not_lt.1 hge) (List.not_lt.1 hle))
        simp [he]

theorem mem_keys_insert {m : SortedMap κ ν} {k k' : κ} {v : ν} :
    k' ∈ (m.insert k v).keys ↔ k' = k ∨ k' ∈ m.keys := mem_map_fst_insertEntry

theorem mem_keys_foldl_insert {k : κ} (l : List (κ × ν)) : ∀ m : SortedMap κ ν,
    k ∈ (l.foldl (fun m e => m.insert e.1 e.2) m).keys ↔ k ∈ m.keys ∨ k ∈ l.map (·.1) := by
  induction l with
  | nil => simp
  | cons e rest ih =>
    intro m
    rw [List.foldl_cons, ih, mem_keys_insert, List.map_cons, List.mem_cons]
    tauto

/-! ## Values of a map that is made of a list -/

theorem find?_insertEntry {k k' : κ} {v : ν} {l : List (κ × ν)} :
    (insertEntry k v l).find? (fun e => key e.1 == key k') =
      if key k = key k' then some (k, v) else l.find? fun e => key e.1 == key k' := by
  induction l with
  | nil =>
    by_cases hk : key k = key k' <;> simp [insertEntry, hk]
  | cons e rest ih =>
    unfold insertEntry
    split
    · by_cases hk : key k = key k' <;> simp [hk]
    · next hge =>
      split
      · next hgt =>
        -- an entry before the new one has another key
        have hne : key e.1 ≠ key k := fun h => List.lt_irrefl _ (h ▸ hgt)
        by_cases hk : key k = key k'
        · have he : key e.1 ≠ key k' := hk ▸ hne
          simp [ih, hk, he]
        · simp [List.find?_cons, ih, hk]
      · next hle =>
        have he : key e.1 = key k := List.le_antisymm (List.not_lt.1 hge) (List.not_lt.1 hle)
        by_cases hk : key k = key k' <;> simp [he, hk]

theorem get?_insert {m : SortedMap κ ν} {k k' : κ} {v : ν} :
    (m.insert k v).get? k' = if key k = key k' then some v else m.get? k' := by
  rw [get?, insert, find?_insertEntry]
  split <;> rfl

theorem get?_foldl_insert {k : κ} {v : ν} (l : List (κ × ν)) : ∀ m : SortedMap κ ν,
    (l.foldl (fun m e => m.insert e.1 e.2) m).get? k = some v ↔
      (∃ a b, l = a ++ (k, v) :: b ∧ k ∉ b.map (·.1)) ∨
        (k ∉ l.map (·.1) ∧ m.get? k = some v) := by
  induction l with
  | nil => simp
  | cons e rest ih =>
    intro m
    rw [List.foldl_cons, ih, get?_insert, List.map_cons, List.mem_cons, not_or]
    constructor
    · rintro (⟨a, b, rfl, hb⟩ | ⟨hk, h⟩)
      · exact .inl ⟨e :: a, b, rfl, hb⟩
      · by_cases he : key e.1 = key k
        · rw [if_pos he] at h
          cases h
          obtain rfl : e.1 = k := ByteKeyed.key_injective he
          exact .inl ⟨[], rest, rfl, hk⟩
        · rw [if_neg he] at h
          exact .inr ⟨⟨fun hke => he (congrArg key hke.symm), hk⟩, h⟩
    · rintro (⟨a, b, hl, hb⟩ | ⟨⟨hke, hk⟩, h⟩)
      · cases a with
        | nil =>
          obtain ⟨rfl, rfl⟩ := List.cons.inj hl
          exact .inr ⟨hb, if_pos rfl⟩
        | cons e' a =>
          obtain ⟨rfl, rfl⟩ := List.cons.inj hl
          exact .inl ⟨a, b, rfl, hb⟩
      · rw [if_neg fun he => hke (ByteKeyed.key_injective he).symm]
        exact .inr ⟨hk, h⟩

/-- **The last entry of a key counts.** -/
theorem get?_ofList_eq_some_iff {l : List (κ × ν)} {k : κ} {v : ν} :
    (ofList l).get? k = some v ↔ ∃ a b, l = a ++ (k, v) :: b ∧ k ∉ b.map (·.1) := by
  rw [ofList, get?_foldl_insert]
  simp [get?, empty]

/-- If the keys increase, the entries are those of the list. -/
theorem get?_ofList_iff_mem {l : List (κ × ν)}
    (h : (l.map (·.1)).Pairwise fun a b => key a < key b) {k : κ} {v : ν} :
    (ofList l).get? k = some v ↔ (k, v) ∈ l := by
  rw [List.pairwise_map] at h
  rw [get?_eq_some_iff, entries_ofList h]

theorem mem_keys_ofList {l : List (κ × ν)} {k : κ} : k ∈ (ofList l).keys ↔ k ∈ l.map (·.1) := by
  rw [ofList, mem_keys_foldl_insert]
  simp [keys, empty]

/-- If no key comes twice, every entry counts. -/
theorem get?_ofList_of_nodup {l : List (κ × ν)} (hl : (l.map (·.1)).Nodup) {k : κ} {v : ν}
    (h : (k, v) ∈ l) : (ofList l).get? k = some v := by
  obtain ⟨a, b, rfl⟩ := List.append_of_mem h
  rw [List.map_append, List.map_cons] at hl
  exact get?_ofList_eq_some_iff.2 ⟨a, b, rfl, (List.nodup_cons.1 (List.nodup_append.1 hl).2.1).1⟩

end SortedMap

namespace SortedSet

theorem mem_toList_ofList {k : κ} {l : List κ} : k ∈ (ofList l).toList ↔ k ∈ l := by
  rw [toList, ofList, SortedMap.ofList, SortedMap.mem_keys_foldl_insert]
  simp [SortedMap.keys, SortedMap.empty]

theorem ofList_eq_empty_iff {l : List κ} : ofList l = SortedMap.empty ↔ l = [] := by
  constructor
  · intro h
    refine List.eq_nil_iff_forall_not_mem.2 fun k hk => ?_
    rw [← mem_toList_ofList, h] at hk
    exact nomatch hk
  · rintro rfl
    rfl

theorem toList_pairwise (s : SortedSet κ) : s.toList.Pairwise fun a b => key a < key b :=
  s.keys_pairwise

/-- Lists in increasing order with the same members are equal. -/
theorem eq_of_mem_iff {a b : List κ} (ha : a.Pairwise fun x y => key x < key y)
    (hb : b.Pairwise fun x y => key x < key y) (h : ∀ k, k ∈ a ↔ k ∈ b) : a = b := by
  have : Std.Irrefl fun x y : κ => key x < key y := ⟨fun x => List.lt_irrefl (key x)⟩
  have : Std.Antisymm fun x y : κ => key x < key y :=
    ⟨fun x y hxy hyx => absurd hyx (List.lt_asymm hxy)⟩
  exact ha.eq_of_mem_iff hb h

/-- A search through a list in increasing order finds what its least member gives that gives
anything. -/
theorem findSome?_eq_some_iff {l : List κ} (hl : l.Pairwise fun a b => key a < key b)
    {f : κ → Option ν} {v : ν} :
    l.findSome? f = some v ↔
      ∃ k ∈ l, f k = some v ∧ ∀ k' ∈ l, ∀ v', f k' = some v' → ¬key k' < key k := by
  rw [List.findSome?_eq_some_iff]
  constructor
  · rintro ⟨before, k, behind, rfl, hk, hbefore⟩
    refine ⟨k, by simp, hk, fun k' hk' v' hv' hlt => ?_⟩
    rcases List.mem_append.1 hk' with hk' | hk'
    · rw [hbefore k' hk'] at hv'
      cases hv'
    · have hbehind := (List.pairwise_append.1 hl).2.1
      rcases List.mem_cons.1 hk' with rfl | hk'
      · exact List.lt_irrefl _ hlt
      · exact List.lt_asymm hlt ((List.pairwise_cons.1 hbehind).1 k' hk')
  · rintro ⟨k, hk, hv, hleast⟩
    obtain ⟨before, behind, rfl⟩ := List.append_of_mem hk
    refine ⟨before, k, behind, rfl, hv, fun k' hk' => Option.eq_none_iff_forall_ne_some.2 ?_⟩
    intro v' hv'
    have hlt := (List.pairwise_append.1 hl).2.2 k' hk' k List.mem_cons_self
    exact hleast k' (List.mem_append_left _ hk') v' hv' hlt

/-- Lists make the same set exactly if they have the same members. -/
theorem toList_ofList_eq_iff {a b : List κ} :
    (ofList a).toList = (ofList b).toList ↔ ∀ k, k ∈ a ↔ k ∈ b := by
  constructor
  · intro h k
    rw [← mem_toList_ofList, h, mem_toList_ofList]
  · intro h
    refine eq_of_mem_iff (toList_pairwise _) (toList_pairwise _) fun k => ?_
    rw [mem_toList_ofList, mem_toList_ofList, h k]

/-- The members of a set make the set. -/
@[simp] theorem ofList_toList (s : SortedSet κ) : ofList s.toList = s := by
  have h : (s.entries.map (·.1)).map (fun k => (k, ())) = s.entries := by
    rw [List.map_map]
    exact List.map_id' s.entries
  rw [toList, ofList, SortedMap.keys, h, SortedMap.ofList_entries]

end SortedSet

end SealedTx
