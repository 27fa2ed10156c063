import SealedTx.Key

/-!
# Maps and sets in byte order

A map is the list of its entries with strictly increasing keys, and a set is a map that tells
nothing of its keys. The order is part of the type, so two maps with the same entries are equal,
and whatever walks one meets its keys from the least byte string to the greatest.
-/

namespace SealedTx

variable {κ ν : Type} [ByteKeyed κ]

open ByteKeyed (key)

/-! ## Maps -/

/-- A finite map, as its entries in strictly increasing order of the keys. -/
structure SortedMap (κ ν : Type) [ByteKeyed κ] where
  entries : List (κ × ν)
  sorted : entries.Pairwise fun a b => key a.1 < key b.1

namespace SortedMap

instance [DecidableEq κ] [DecidableEq ν] : DecidableEq (SortedMap κ ν) := fun a b =>
  match decEq a.entries b.entries with
  | isTrue h => isTrue (by cases a; cases b; simp_all)
  | isFalse h => isFalse (fun e => h (e ▸ rfl))

@[ext] theorem ext {a b : SortedMap κ ν} (h : a.entries = b.entries) : a = b := by
  cases a; cases b; simp_all

/-- The map without entries. -/
def empty : SortedMap κ ν := ⟨[], .nil⟩

/-- Puts an entry in its place; an entry with the same key gives way. -/
def insertEntry (k : κ) (v : ν) : List (κ × ν) → List (κ × ν)
  | [] => [(k, v)]
  | e :: rest =>
    if key k < key e.1 then (k, v) :: e :: rest
    else if key e.1 < key k then e :: insertEntry k v rest
    else (k, v) :: rest

theorem mem_insertEntry {k : κ} {v : ν} {l : List (κ × ν)} {x : κ × ν}
    (h : x ∈ insertEntry k v l) : x = (k, v) ∨ x ∈ l := by
  induction l with
  | nil => simpa [insertEntry] using h
  | cons e rest ih =>
    unfold insertEntry at h
    split at h
    · simpa using h
    · split at h
      · rcases List.mem_cons.1 h with h | h
        · exact .inr (h ▸ List.mem_cons_self)
        · rcases ih h with h | h
          · exact .inl h
          · exact .inr (List.mem_cons_of_mem _ h)
      · rcases List.mem_cons.1 h with h | h
        · exact .inl h
        · exact .inr (List.mem_cons_of_mem _ h)

theorem insertEntry_sorted (k : κ) (v : ν) {l : List (κ × ν)}
    (h : l.Pairwise fun a b => key a.1 < key b.1) :
    (insertEntry k v l).Pairwise fun a b => key a.1 < key b.1 := by
  induction l with
  | nil => simp [insertEntry]
  | cons e rest ih =>
    obtain ⟨he, hr⟩ := List.pairwise_cons.1 h
    unfold insertEntry
    split
    next hlt =>
      refine List.pairwise_cons.2 ⟨fun x hx => ?_, h⟩
      rcases List.mem_cons.1 hx with hx | hx
      · exact hx ▸ hlt
      · exact List.lt_trans hlt (he x hx)
    next hge =>
      split
      next hgt =>
        refine List.pairwise_cons.2 ⟨fun x hx => ?_, ih hr⟩
        rcases mem_insertEntry hx with hx | hx
        · exact hx ▸ hgt
        · exact he x hx
      next hle =>
        have heq : key e.1 = key k := List.le_antisymm (List.not_lt.1 hge) (List.not_lt.1 hle)
        exact List.pairwise_cons.2 ⟨fun x hx => heq ▸ he x hx, hr⟩

/-- Gives a key a value; a value that it had gives way. -/
def insert (m : SortedMap κ ν) (k : κ) (v : ν) : SortedMap κ ν :=
  ⟨insertEntry k v m.entries, insertEntry_sorted k v m.sorted⟩

/-- The map of a list of entries, in which the last entry of a key counts. -/
def ofList (l : List (κ × ν)) : SortedMap κ ν := l.foldl (fun m e => m.insert e.1 e.2) empty

/-- The value of a key. -/
def get? (m : SortedMap κ ν) (k : κ) : Option ν :=
  (m.entries.find? fun e => key e.1 == key k).map (·.2)

/-- Whether a key has a value. -/
def contains (m : SortedMap κ ν) (k : κ) : Bool := (m.get? k).isSome

/-- The keys, in order. -/
def keys (m : SortedMap κ ν) : List κ := m.entries.map (·.1)

/-- The number of entries. -/
def size (m : SortedMap κ ν) : Nat := m.entries.length

end SortedMap

/-! ## Sets -/

/-- A finite set, as a map that tells nothing of its keys. -/
abbrev SortedSet (κ : Type) [ByteKeyed κ] := SortedMap κ Unit

namespace SortedSet

/-- The members, in order. -/
def toList (s : SortedSet κ) : List κ := s.keys

/-- The set of the members of a list. -/
def ofList (l : List κ) : SortedSet κ := SortedMap.ofList (l.map fun k => (k, ()))

/-- Whether the set has no members. -/
def isEmpty (s : SortedSet κ) : Bool := s.entries.isEmpty

end SortedSet

/-! ## Lists -/

/-- Values in byte order, equal ones side by side. -/
def sortByBytes (l : List κ) : List κ := l.mergeSort fun a b => decide (¬ key b < key a)

end SealedTx
