import SealedTx.Cbor.Reader
import SealedTx.Cbor.Writer

/-!
# Reading items back

An item is read back from its bytes, whatever follows them (`parse_encode`), if all its numbers
and lengths have a head and its levels are no more than the reader follows (`Value.Fits`).

The bytes of an item are a head and a body. The head is read first and tells which item it is
(`Value.reads_head`); the body is then read by what the head says, one lemma for each kind of item.
A tag is the one item whose reader looks at a second head before it goes on: under a tag for big
numbers a short byte string would be read as an integer, so it does not fit.
-/

namespace SealedTx.Cbor

/-! ## Readers in sequence -/

section Sequence

variable {α β : Type} {r : Reader α} {a : α} {b : Bytes}

/-- Whether a reader takes a value off the front of any byte string that begins so. -/
def Reader.Takes (r : Reader α) (b : Bytes) (a : α) : Prop :=
  ∀ rest, r.run (b ++ rest) = .ok (a, rest)

theorem Reader.takes_pure (a : α) : Reader.Takes (pure a) [] a := fun _ => rfl

theorem Reader.Takes.bind {f : α → Reader β} {c : Bytes} {d : β} (hr : r.Takes b a)
    (hf : (f a).Takes c d) : Reader.Takes (r >>= f) (b ++ c) d := by
  intro rest
  rw [StateT.run_bind, List.append_assoc, hr]
  exact hf rest

/-- A reader that takes no bytes may come last. -/
theorem Reader.Takes.bind_pure {f : α → Reader β} {d : β} (hr : r.Takes b a)
    (hf : (f a).Takes [] d) : Reader.Takes (r >>= f) b d := by
  have h := hr.bind hf
  rwa [List.append_nil] at h

/-- A reader that takes no bytes may come first. -/
theorem Reader.Takes.pure_bind {f : α → Reader β} {c : Bytes} {d : β} (hr : r.Takes [] a)
    (hf : (f a).Takes c d) : Reader.Takes (r >>= f) c d :=
  hr.bind hf

/-- As many bytes as are asked for are taken. -/
theorem takes_take {n : Nat} (hb : b.length = n) : (take n).Takes b b := by
  intro rest
  have hlen : ¬ (b ++ rest).length < n := by simp [hb]
  subst hb
  simp only [take, StateT.run_bind, StateT.run_get, StateT.run_set, StateT.run_pure,
    LawfulMonad.pure_bind, if_neg hlen, List.take_left, List.drop_left]
  rfl

/-- A number of a width is taken off the bytes that it is written in. -/
theorem takes_number (width : Nat) {n : Nat} (hn : n < Bytes.values width) :
    Reader.Takes (do return some (Bytes.toNatBE (← take width))) (Bytes.ofNatBE width n)
      (some n) := by
  refine (takes_take (Bytes.length_ofNatBE width n)).bind_pure ?_
  rw [Bytes.toNatBE_ofNatBE, Nat.mod_eq_of_lt hn]
  exact Reader.takes_pure _

end Sequence

/-! ## Heads -/

/-- Arguments of heads are below this number. -/
def argumentLimit : Nat := 0x10000000000000000

/-- The head with a major type, the minor one that tells how its argument is written, and the
argument. -/
def headOf : (major minor n : Nat) → Head
  | 0, _, n => .unsigned n
  | 1, _, n => .negative n
  | 2, _, n => .bytes (some n)
  | 3, _, n => .text (some n)
  | 4, _, n => .array (some n)
  | 5, _, n => .map (some n)
  | 6, _, n => .tag n
  | _, minor, n => specialHead minor (some n)

/-- The first byte of a head tells its major type and how its argument is written. -/
theorem takes_first (major : Nat) {minor n : Nat} {b : Bytes} (hmajor : major < 8)
    (hminor : minor < 32) (h : (readArgument minor).Takes b (some n)) :
    readHead.Takes (UInt8.ofNat (32 * major + minor) :: b) (headOf major minor n) := by
  have hfirst : Bytes.toNatLE [UInt8.ofNat (32 * major + minor)] = 32 * major + minor := by
    simp [Bytes.toNatLE]
    omega
  have htake : (take 1).Takes [UInt8.ofNat (32 * major + minor)] _ := takes_take rfl
  refine htake.bind ?_
  dsimp only
  rw [hfirst, show (32 * major + minor) % 32 = minor by omega,
    show (32 * major + minor) / 32 = major by omega]
  refine h.bind_pure ?_
  -- the reader matches on the major type, so each of the eight is looked at
  obtain rfl | rfl | rfl | rfl | rfl | rfl | rfl | rfl : major = 0 ∨ major = 1 ∨ major = 2 ∨
    major = 3 ∨ major = 4 ∨ major = 5 ∨ major = 6 ∨ major = 7 := by omega
  all_goals exact Reader.takes_pure _

/-- **A head is read back**, in whichever width its argument is written. -/
theorem takes_head {major n : Nat} {d : Head} (hmajor : major < 8) (hn : n < argumentLimit)
    (hd : ∀ minor, headOf major minor n = d) : readHead.Takes (head major n) d := by
  unfold head
  split
  next h =>
    rw [← hd n]
    refine takes_first major hmajor (by omega) ?_
    rw [readArgument, if_pos h]
    exact Reader.takes_pure _
  split
  next h =>
    rw [← hd 24]
    exact takes_first major hmajor (by omega) (takes_number 1 h)
  split
  next h =>
    rw [← hd 25]
    exact takes_first major hmajor (by omega) (takes_number 2 h)
  split
  next h =>
    rw [← hd 26]
    exact takes_first major hmajor (by omega) (takes_number 4 h)
  next =>
    rw [← hd 27]
    exact takes_first major hmajor (by omega) (takes_number 8 hn)

/-- A number below 24 of major type seven is that of a simple item. -/
theorem takes_simpleHead {n : Nat} (h : n < 24) : readHead.Takes (head 7 n) (.simple n) := by
  have harg : (readArgument n).Takes [] (some n) := by
    rw [readArgument, if_pos h]
    exact Reader.takes_pure _
  have hhead : readHead.Takes _ (specialHead n (some n)) :=
    takes_first 7 (by decide) (by omega) harg
  rw [specialHead, if_pos (by omega)] at hhead
  rwa [head, if_pos h]

/-! ## Heads and bodies of items -/

/-- The head of an item. -/
def Value.head : Value → Head
  | integer n => if 0 ≤ n then .unsigned n.toNat else .negative (-1 - n).toNat
  | bytes b => .bytes (some b.length)
  | text s => .text (some (Bytes.ofText s).length)
  | array items => .array (some items.length)
  | map entries => .map (some entries.length)
  | tag n _ => .tag n
  | bool b => .simple (if b then 21 else 20)
  | null => .simple 22
  | float bits => .float bits

/-- The bytes of an item behind its head. -/
def Value.body : Value → Bytes
  | bytes b => b
  | text s => Bytes.ofText s
  | array items => encodeItems items
  | map entries => encodeEntries entries
  | tag _ item => item.encode
  | integer _ | bool _ | null | float _ => []

/-! ## What fits -/

mutual

/-- Whether an item can be written and read back with at most a number of levels of maps, arrays
and tags: its numbers and lengths have a head, and no tag makes it a big number. -/
def Value.Fits : (v : Value) → (depth : Nat) → Prop
  | .integer n, _ => -argumentLimit ≤ n ∧ n < argumentLimit
  | .bytes b, _ => b.length < argumentLimit
  | .text s, _ => (Bytes.ofText s).length < argumentLimit
  | .float _, _ | .bool _, _ | .null, _ => True
  | .tag _ _, 0 | .array _, 0 | .map _, 0 => False
  | .tag n item, depth + 1 =>
    n < argumentLimit ∧ item.Fits depth ∧ bigLength? n item.head = none
  | .array items, depth + 1 => items.length < argumentLimit ∧ FitsAll items depth
  | .map entries, depth + 1 => entries.length < argumentLimit ∧ FitsEach entries depth

/-- Whether all items of an array fit. -/
def FitsAll : (items : List Value) → (depth : Nat) → Prop
  | [], _ => True
  | item :: rest, depth => item.Fits depth ∧ FitsAll rest depth

/-- Whether all keys and values of a map fit. -/
def FitsEach : (entries : List (Value × Value)) → (depth : Nat) → Prop
  | [], _ => True
  | (k, v) :: rest, depth => (k.Fits depth ∧ v.Fits depth) ∧ FitsEach rest depth

end

theorem fitsAll_iff : ∀ {items : List Value} {depth : Nat},
    FitsAll items depth ↔ ∀ v ∈ items, v.Fits depth
  | [], _ => by simp [FitsAll]
  | v :: items, depth => by rw [FitsAll, fitsAll_iff, List.forall_mem_cons]

theorem fitsEach_iff : ∀ {entries : List (Value × Value)} {depth : Nat},
    FitsEach entries depth ↔ ∀ e ∈ entries, e.1.Fits depth ∧ e.2.Fits depth
  | [], _ => by simp [FitsEach]
  | (k, v) :: entries, depth => by rw [FitsEach, fitsEach_iff, List.forall_mem_cons]

/-- **The bytes of an item begin with its head.** -/
theorem Value.reads_head {v : Value} {depth : Nat} (h : v.Fits depth) :
    ∃ b, v.encode = b ++ v.body ∧ readHead.Takes b v.head := by
  cases v with
  | integer n =>
    obtain ⟨hlow, hhigh⟩ := h
    simp only [argumentLimit] at hlow hhigh
    by_cases hn : 0 ≤ n
    · refine ⟨Cbor.head 0 n.toNat, by simp [encode, body, hn], ?_⟩
      rw [head, if_pos hn]
      exact takes_head (by decide) (by rw [argumentLimit]; omega) fun _ => rfl
    · refine ⟨Cbor.head 1 (-1 - n).toNat, by simp [encode, body, hn], ?_⟩
      rw [head, if_neg hn]
      exact takes_head (by decide) (by rw [argumentLimit]; omega) fun _ => rfl
  | bytes b => exact ⟨Cbor.head 2 b.length, rfl, takes_head (by decide) h fun _ => rfl⟩
  | text s =>
    exact ⟨Cbor.head 3 (Bytes.ofText s).length, rfl, takes_head (by decide) h fun _ => rfl⟩
  | array items =>
    cases depth with
    | zero => exact h.elim
    | succ depth => exact ⟨Cbor.head 4 items.length, rfl, takes_head (by decide) h.1 fun _ => rfl⟩
  | map entries =>
    cases depth with
    | zero => exact h.elim
    | succ depth => exact ⟨Cbor.head 5 entries.length, rfl, takes_head (by decide) h.1 fun _ => rfl⟩
  | tag n item =>
    cases depth with
    | zero => exact h.elim
    | succ depth => exact ⟨Cbor.head 6 n, rfl, takes_head (by decide) h.1 fun _ => rfl⟩
  | bool b =>
    refine ⟨Cbor.head 7 (if b then 21 else 20), by simp [encode, body], ?_⟩
    exact takes_simpleHead (by split <;> omega)
  | null => exact ⟨Cbor.head 7 22, rfl, takes_simpleHead (by decide)⟩
  | float bits =>
    refine ⟨UInt8.ofNat (32 * 7 + 27) :: Bytes.ofNatBE 8 bits.toNat, by simp [encode, body], ?_⟩
    have hbits : (readArgument 27).Takes (Bytes.ofNatBE 8 bits.toNat) (some bits.toNat) :=
      takes_number 8 bits.toNat_lt
    have hhead : readHead.Takes _ (.float (UInt64.ofNat bits.toNat)) :=
      takes_first 7 (by decide) (by decide) hbits
    rwa [UInt64.ofNat_toNat] at hhead

/-! ## Items -/

theorem takes_text (s : String) :
    (readString true (some (Bytes.ofText s).length)).Takes (Bytes.ofText s)
      (Bytes.ofText s) := by
  intro rest
  have hlen : ¬ (Bytes.ofText s ++ rest).length < (Bytes.ofText s).length := by simp
  have htake := takes_take (b := Bytes.ofText s) rfl rest
  rw [readString, takeChunk, if_pos rfl, takeText]
  simp only [StateT.run_bind, StateT.run_get, LawfulMonad.pure_bind, hlen, false_and, if_false,
    htake]
  simp only [bind, Except.bind, Bytes.toText?_ofText, Option.isNone_some, Bool.false_eq_true,
    if_false]
  rfl

/-- A look at the head of an item leaves the item where it is. -/
theorem takes_peekHead_bind {v : Value} {depth : Nat} {β : Type} {f : Head → Reader β} {d : β}
    (h : v.Fits depth) (hf : (f v.head).Takes v.encode d) :
    Reader.Takes (peekHead >>= f) v.encode d := by
  obtain ⟨b, henc, hhead⟩ := v.reads_head h
  intro rest
  have hpeek : peekHead.run (v.encode ++ rest) = .ok (v.head, v.encode ++ rest) := by
    have hr := hhead (v.body ++ rest)
    rw [← List.append_assoc, ← henc] at hr
    simp only [peekHead, StateT.run_bind, StateT.run_get, StateT.run_set, LawfulMonad.pure_bind,
      hr]
    rfl
  rw [StateT.run_bind, hpeek]
  exact hf rest

/-- An item is read by what its head says. -/
theorem takes_itemOver {v : Value} {depth : Nat} {inner : Option (Reader Value)}
    (h : v.Fits depth)
    (hbody : ∀ b, readHead.Takes b v.head → (itemOver inner).Takes (b ++ v.body) v) :
    (itemOver inner).Takes v.encode v := by
  obtain ⟨b, henc, hhead⟩ := v.reads_head h
  rw [henc]
  exact hbody b hhead

/-- At any depth an item is read over some reader for its parts, or none. -/
theorem item_eq (depth : Nat) : ∃ inner, item depth = itemOver inner := by
  cases depth with
  | zero => exact ⟨none, rfl⟩
  | succ depth => exact ⟨some (item depth), rfl⟩

mutual

/-- **An item that fits is read back.** -/
theorem takes_item : ∀ {v : Value} {depth : Nat}, v.Fits depth → (item depth).Takes v.encode v
  | .integer n, depth, h => by
    obtain ⟨inner, hinner⟩ := item_eq depth
    rw [hinner]
    refine takes_itemOver h fun b hb => hb.bind ?_
    by_cases hn : 0 ≤ n
    · have ht : Reader.Takes (pure (.integer n.toNat)) [] (Value.integer n) := by
        rw [Int.toNat_of_nonneg hn]
        exact Reader.takes_pure _
      rw [Value.head, if_pos hn]
      exact ht
    · have ht : Reader.Takes (pure (.integer (-1 - (-1 - n).toNat))) [] (Value.integer n) := by
        rw [Int.toNat_of_nonneg (by omega), Int.sub_sub_self]
        exact Reader.takes_pure _
      rw [Value.head, if_neg hn]
      exact ht
  | .bytes b, depth, h => by
    obtain ⟨inner, hinner⟩ := item_eq depth
    rw [hinner]
    refine takes_itemOver h fun hb hhead => hhead.bind ?_
    exact Reader.Takes.bind_pure (takes_take (b := b) rfl) (Reader.takes_pure _)
  | .text s, depth, h => by
    obtain ⟨inner, hinner⟩ := item_eq depth
    rw [hinner]
    refine takes_itemOver h fun hb hhead => hhead.bind ((takes_text s).bind_pure ?_)
    rw [Bytes.toText?_ofText]
    exact Reader.takes_pure _
  | .float bits, depth, h => by
    obtain ⟨inner, hinner⟩ := item_eq depth
    rw [hinner]
    exact takes_itemOver h fun hb hhead => hhead.bind (Reader.takes_pure _)
  | .bool b, depth, h => by
    obtain ⟨inner, hinner⟩ := item_eq depth
    rw [hinner]
    refine takes_itemOver h fun hb hhead => hhead.bind ?_
    cases b <;> exact Reader.takes_pure _
  | .null, depth, h => by
    obtain ⟨inner, hinner⟩ := item_eq depth
    rw [hinner]
    exact takes_itemOver h fun hb hhead => hhead.bind (Reader.takes_pure _)
  | .tag n v, depth + 1, h => by
    have hv := takes_item h.2.1
    -- the head behind the tag is only looked at, so the item under it is read whole
    refine takes_itemOver h fun hb hhead => hhead.bind (takes_peekHead_bind h.2.1 ?_)
    rw [h.2.2]
    exact (Reader.takes_pure _).pure_bind (hv.bind_pure (Reader.takes_pure _))
  | .array items, depth + 1, h => by
    have hitems := takes_items h.2
    refine takes_itemOver h fun hb hhead => hhead.bind ?_
    exact (Reader.takes_pure _).pure_bind (hitems.bind_pure (Reader.takes_pure _))
  | .map entries, depth + 1, h => by
    have hentries := takes_entries h.2
    refine takes_itemOver h fun hb hhead => hhead.bind ?_
    exact (Reader.takes_pure _).pure_bind (hentries.bind_pure (Reader.takes_pure _))

/-- The items of an array are read back. -/
theorem takes_items : ∀ {items : List Value} {depth : Nat}, FitsAll items depth →
    (repeated (item depth) items.length).Takes (Value.encodeItems items) items
  | [], _, _ => Reader.takes_pure []
  | v :: items, depth, h => by
    have hv := takes_item h.1
    have hitems := takes_items h.2
    exact hv.bind (hitems.bind_pure (Reader.takes_pure _))

/-- The keys and values of a map are read back. -/
theorem takes_entries : ∀ {entries : List (Value × Value)} {depth : Nat},
    FitsEach entries depth →
    (repeated (do return (← item depth, ← item depth)) entries.length).Takes
      (Value.encodeEntries entries) entries
  | [], _, _ => Reader.takes_pure []
  | (k, v) :: entries, depth, h => by
    have hk := takes_item h.1.1
    have hv := takes_item h.1.2
    have hentries := takes_entries h.2
    have hpair : Reader.Takes (do return (← item depth, ← item depth)) (k.encode ++ v.encode)
        (k, v) := hk.bind (hv.bind_pure (Reader.takes_pure _))
    exact hpair.bind (hentries.bind_pure (Reader.takes_pure _))

end

/-- **What was written for an item is read as the item**, whatever follows it. -/
theorem parse_encode {v : Value} (h : v.Fits depthLimit) (rest : Bytes) :
    parse (v.encode ++ rest) = .ok (v, rest) :=
  takes_item h rest

end SealedTx.Cbor
