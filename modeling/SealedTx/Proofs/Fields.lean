import SealedTx.Fields

/-!
# Reading fields back

A reader takes a value off certain bytes (`Takes`) if it finds that value whenever the bytes stand
at the front, whatever follows them, and leaves just what follows. Counts, fields and arrays are
taken off the bytes that are written for them, so no such byte string is a proper prefix of
another one.

Nothing else is accepted either: a reader that succeeds has found at the front just the bytes that
are written for its value (`run_readField_iff`, `run_readArray_iff`), and all other bytes it finds
malformed (`Decides`). Readers in sequence are read so part by part (`run_bind_iff`,
`Decides.bind`), so what a format of fields accepts can be worked out down its reader.

A read that finds nothing stops (`Kind.Stops`) before a count for which there are not enough bytes,
behind one that is no length, behind the count of a field for which there are not enough bytes, or
at an item of an array where the read of a field stops.
-/

namespace SealedTx.Fields

/-- Lengths are below this number: in a count, the highest bit of one is clear. -/
def lengthLimit : Nat := 0x8000000000000000

/-- Whether a reader takes a value off the front of any byte string that begins so. -/
def Reader.Takes {α : Type} (r : Reader α) (b : Bytes) (a : α) : Prop :=
  ∀ rest, r.run (b ++ rest) = .ok a rest

/-! ## Readers in sequence -/

section Sequence

variable {α β : Type} {r : Reader α} {a : α} {b : Bytes}

theorem Reader.Takes.bind {f : α → Reader β} {c : Bytes} {d : β} (hr : r.Takes b a)
    (hf : (f a).Takes c d) : Reader.Takes (r >>= f) (b ++ c) d := by
  intro rest
  rw [EStateM.run_bind, List.append_assoc, hr]
  exact hf rest

/-- A reader that takes no bytes may come last. -/
theorem Reader.Takes.bind_pure {f : α → Reader β} {d : β} (hr : r.Takes b a)
    (hf : (f a).Takes [] d) : Reader.Takes (r >>= f) b d := by
  have h := hr.bind hf
  rwa [List.append_nil] at h

theorem Reader.takes_pure (a : α) : Reader.Takes (pure a) [] a := fun _ => rfl

/-- No bytes that a value is taken off are the beginning of others, or the value is the same. -/
theorem Reader.Takes.append_inj {a' : α} {c x y : Bytes} (hr : r.Takes b a) (hr' : r.Takes c a')
    (h : b ++ x = c ++ y) : a = a' ∧ x = y := by
  have hrun := hr x
  rw [h, hr' y] at hrun
  cases hrun
  exact ⟨rfl, rfl⟩

end Sequence

/-! ## Counts, fields and arrays -/

@[simp] theorem length_count (n : Nat) : (count n).length = countSize := Bytes.length_ofNatBE _ _

/-- The bytes of a count are taken, also when they are no length. -/
theorem run_readCount (what : String) {b : Bytes} (rest : Bytes) (hb : b.length = countSize) :
    (readCount what).run (b ++ rest) =
      if Bytes.toNatBE b < lengthLimit then .ok (Bytes.toNatBE b) rest
      else .error (.malformedPayload
        s!"invalid length {(Bytes.toNatBE b : Int) - 0x10000000000000000} for {what}") rest := by
  have hlen : ¬ (b ++ rest).length < countSize := by simp [hb]
  have htake : (b ++ rest).take countSize = b := by rw [← hb, List.take_left]
  have hdrop : (b ++ rest).drop countSize = rest := by rw [← hb, List.drop_left]
  simp only [readCount, EStateM.run_bind, EStateM.run_get, EStateM.run_set, if_neg hlen, htake,
    hdrop]
  by_cases hn : Bytes.toNatBE b < lengthLimit
  · rw [if_pos hn, if_pos (show Bytes.toNatBE b < 0x8000000000000000 from hn)]
    rfl
  · rw [if_neg hn, if_neg (show ¬Bytes.toNatBE b < 0x8000000000000000 from hn)]
    rfl

theorem toNatBE_count {n : Nat} (hn : n < 2 * lengthLimit) : Bytes.toNatBE (count n) = n := by
  rw [count, Bytes.toNatBE_ofNatBE]
  exact Nat.mod_eq_of_lt hn

/-- A length is read back. -/
theorem takes_count (what : String) {n : Nat} (hn : n < lengthLimit) :
    (readCount what).Takes (count n) n := by
  intro rest
  rw [run_readCount what rest (length_count n), toNatBE_count (by omega), if_pos hn]

/-- **A field is read back.** -/
theorem takes_field (what : String) {b : Bytes} (hb : b.length < lengthLimit) :
    (readField what).Takes (field b) b := by
  intro rest
  have hlen : ¬ (b ++ rest).length < b.length := by simp
  rw [readField, EStateM.run_bind, field, List.append_assoc, takes_count what hb]
  simp only [EStateM.run_bind, EStateM.run_get, EStateM.run_set, EStateM.run_pure, if_neg hlen,
    List.take_left, List.drop_left]

theorem takes_fields (what : String) : ∀ {items : List Bytes},
    (∀ b ∈ items, b.length < lengthLimit) →
    (readFields what items.length).Takes (items.flatMap field) items
  | [], _ => Reader.takes_pure []
  | b :: items, h => by
    have hb := takes_field what (h b List.mem_cons_self)
    have ih := takes_fields what fun x hx => h x (List.mem_cons_of_mem _ hx)
    rw [List.flatMap_cons, List.length_cons, readFields]
    exact hb.bind (ih.bind_pure (Reader.takes_pure _))

/-- **An array of fields is read back.** -/
theorem takes_array (what : String) {items : List Bytes} (hn : items.length < lengthLimit)
    (h : ∀ b ∈ items, b.length < lengthLimit) :
    (readArray what).Takes (array items) items :=
  (takes_count what hn).bind (takes_fields what h)

/-! ## What is left -/

/-- Every field has bytes, those of its count at least. -/
theorem field_ne_nil (b : Bytes) : field b ≠ [] := by
  intro h
  have hlen := congrArg List.length h
  simp [field, count, countSize] at hlen

theorem array_ne_nil (items : List Bytes) : array items ≠ [] := by
  intro h
  have hlen := congrArg List.length h
  simp [array, count, countSize] at hlen

/-- Bytes are left where there are some. -/
theorem run_hasMore_bind {β : Type} {f : Bool → Reader β} {b : Bytes} (hb : b ≠ []) :
    EStateM.run (hasMore >>= f) b = (f true).run b := by
  have hmore : b.isEmpty = false := by simpa using hb
  rw [EStateM.run_bind, hasMore]
  simp only [EStateM.run_bind, EStateM.run_get, EStateM.run_pure, hmore, Bool.not_false]

/-! ## What is accepted and what is not -/

/-- Whether a reader finds a byte string malformed. -/
def Reader.Rejects {α : Type} (r : Reader α) (b : Bytes) : Prop :=
  ∃ reason rest, r.run b = .error (.malformedPayload reason) rest

/-- Whether a reader finds all byte strings malformed that it does not accept. -/
def Reader.Decides {α : Type} (r : Reader α) : Prop :=
  ∀ b, (∃ a rest, r.run b = .ok a rest) ∨ r.Rejects b

section Sequence

variable {α β : Type} {b rest : Bytes} {r : Reader α} {f : α → Reader β}

theorem run_bind_iff {d : β} : EStateM.run (r >>= f) b = .ok d rest ↔
    ∃ a c, r.run b = .ok a c ∧ (f a).run c = .ok d rest := by
  rw [EStateM.run_bind]
  cases r.run b with
  | ok a c =>
    constructor
    · intro h
      exact ⟨a, c, rfl, h⟩
    · rintro ⟨_, _, hrun, h⟩
      cases hrun
      exact h
  | error e c => simp

theorem run_bind_of_ok {a : α} {c : Bytes} (h : r.run b = .ok a c) :
    EStateM.run (r >>= f) b = (f a).run c := by
  rw [EStateM.run_bind, h]

theorem run_bind_of_error {e : EnclaveError} (h : r.run b = .error e rest) :
    EStateM.run (r >>= f) b = .error e rest := by
  rw [EStateM.run_bind, h]

theorem run_pure_iff {a d : α} :
    EStateM.run (pure a : Reader α) b = .ok d rest ↔ d = a ∧ rest = b := by
  rw [EStateM.run_pure, EStateM.Result.ok.injEq, eq_comm, eq_comm (a := b)]

theorem eval_eq_ok_iff {a : α} : r.eval b = .ok a ↔ ∃ rest, r.run b = .ok a rest := by
  unfold Reader.eval
  cases r.run b with
  | ok a c => simp
  | error e c => simp

theorem Reader.rejects_throw (reason : String) (b : Bytes) :
    Reader.Rejects (throw (.malformedPayload reason) : Reader α) b := ⟨reason, b, rfl⟩

theorem Reader.Rejects.bind (h : r.Rejects b) : Reader.Rejects (r >>= f) b := by
  obtain ⟨reason, c, h⟩ := h
  exact ⟨reason, c, run_bind_of_error h⟩

theorem Reader.Rejects.of_bind {a : α} {c : Bytes} (hr : r.run b = .ok a c)
    (hf : (f a).Rejects c) : Reader.Rejects (r >>= f) b := by
  obtain ⟨reason, d, hf⟩ := hf
  exact ⟨reason, d, (run_bind_of_ok hr).trans hf⟩

theorem Reader.decides_pure (a : α) : Reader.Decides (pure a) := fun b => .inl ⟨a, b, rfl⟩

theorem Reader.decides_throw (reason : String) :
    Reader.Decides (throw (.malformedPayload reason) : Reader α) :=
  fun b => .inr (Reader.rejects_throw reason b)

theorem Reader.Decides.bind (hr : r.Decides) (hf : ∀ a, (f a).Decides) :
    Reader.Decides (r >>= f) := by
  intro b
  rcases hr b with ⟨a, c, hrun⟩ | h
  · rcases hf a c with ⟨d, rest, hrun'⟩ | h
    · exact .inl ⟨d, rest, run_bind_iff.2 ⟨a, c, hrun, hrun'⟩⟩
    · exact .inr (.of_bind hrun h)
  · exact .inr h.bind

/-- What a reader that decides finds malformed is just what it does not accept. -/
theorem Reader.Decides.rejects_iff (hr : r.Decides) :
    r.Rejects b ↔ ¬∃ a rest, r.run b = .ok a rest := by
  constructor
  · rintro ⟨reason, c, herror⟩ ⟨a, rest, hok⟩
    rw [herror] at hok
    cases hok
  · exact (hr b).resolve_left

/-- What a reader that decides does not accept is malformed. -/
theorem Reader.Decides.malformed_of_eval {e : EnclaveError} (hr : r.Decides)
    (h : r.eval b = .error e) : ∃ reason, e = .malformedPayload reason := by
  rcases hr b with ⟨a, rest, hrun⟩ | ⟨reason, rest, hrun⟩
  · rw [eval_eq_ok_iff.2 ⟨rest, hrun⟩] at h
    cases h
  · rw [Reader.eval, hrun] at h
    cases h
    exact ⟨reason, rfl⟩

theorem Reader.decides_mapM {f : β → Reader α} (hf : ∀ b, (f b).Decides) :
    ∀ l : List β, Reader.Decides (l.mapM f)
  | [] => Reader.decides_pure []
  | b :: l => by
    rw [List.mapM_cons]
    exact (hf b).bind fun a => (Reader.decides_mapM hf l).bind fun as => Reader.decides_pure _

end Sequence

/-! ## Parts, and where a read stops -/

/-- What is written at once, and read back at once. -/
inductive Kind where
  | count
  | field
  | array

namespace Kind

/-- What is written as a part of a kind. -/
def Value : Kind → Type
  | count => Nat
  | field => Bytes
  | array => List Bytes

/-- Writes a part. -/
def write : (k : Kind) → k.Value → Bytes
  | count => Fields.count
  | field => Fields.field
  | array => Fields.array

/-- Reads a part. -/
def read (what : String) : (k : Kind) → Reader k.Value
  | count => readCount what
  | field => readField what
  | array => readArray what

/-- Whether all counts in a part are lengths. -/
def Fits : (k : Kind) → k.Value → Prop
  | count => fun (n : Nat) => n < lengthLimit
  | field => fun (b : Bytes) => b.length < lengthLimit
  | array => fun (items : List Bytes) =>
    items.length < lengthLimit ∧ ∀ v ∈ items, v.length < lengthLimit

end Kind

/-- How a read stops that finds no part: for what reason, and what it leaves. -/
inductive Kind.Stops (what : String) : Kind → Bytes → String → Bytes → Prop where
  | truncated {k : Kind} {b : Bytes} (h : b.length < countSize) :
      Stops what k b s!"truncated length prefix for {what}: {b.length} bytes left" b
  | negative {k : Kind} {n : Nat} {rest : Bytes} (hn : lengthLimit ≤ n)
      (hn' : n < 2 * lengthLimit) :
      Stops what k (Fields.count n ++ rest)
        s!"invalid length {(n : Int) - 0x10000000000000000} for {what}" rest
  | short {n : Nat} {rest : Bytes} (hn : n < lengthLimit) (h : rest.length < n) :
      Stops what .field (Fields.count n ++ rest)
        s!"{what} declares {n} bytes but only {rest.length} remain" rest
  | item {n : Nat} {items : List Bytes} {c left : Bytes} {reason : String} (hn : n < lengthLimit)
      (hlt : items.length < n) (hitems : ∀ v ∈ items, v.length < lengthLimit)
      (h : Stops what .field c reason left) :
      Stops what .array (Fields.count n ++ (items.flatMap Fields.field ++ c)) reason left

section Parts

variable {what reason : String} {b c left rest : Bytes} {n : Nat}

/-- Bytes that are enough for a count begin with one. -/
theorem exists_count (h : countSize ≤ b.length) :
    ∃ n rest, n < 2 * lengthLimit ∧ b = count n ++ rest := by
  -- the digits of the number that is read are the bytes that it is read off
  have hcount := Bytes.ofNatBE_toNatBE (b.take countSize)
  have hlt := Bytes.toNatBE_lt (b.take countSize)
  rw [List.length_take_of_le h] at hcount hlt
  refine ⟨Bytes.toNatBE (b.take countSize), b.drop countSize, hlt, ?_⟩
  rw [count, hcount, List.take_append_drop]

/-- Either a byte string begins with a length, or every read of it stops. -/
theorem count_cases (what : String) (b : Bytes) :
    (∃ n rest, n < lengthLimit ∧ b = count n ++ rest) ∨
      ∃ reason left, ∀ k : Kind, k.Stops what b reason left := by
  rcases Nat.lt_or_ge b.length countSize with hshort | hlength
  · exact .inr ⟨_, _, fun _ => .truncated hshort⟩
  · obtain ⟨n, rest, hn, rfl⟩ := exists_count hlength
    rcases Nat.lt_or_ge n lengthLimit with hlt | hle
    · exact .inl ⟨n, rest, hlt, rfl⟩
    · exact .inr ⟨_, _, fun _ => .negative hle hn⟩

/-- A count in front of so many bytes makes them a field. -/
theorem count_append_eq_field (h : n ≤ c.length) :
    count n ++ c = field (c.take n) ++ c.drop n := by
  rw [field, List.length_take_of_le h, List.append_assoc, List.take_append_drop]

/-- Either a byte string begins with a field, or the read of one stops. -/
theorem field_cases (what : String) (b : Bytes) :
    (∃ v rest, v.length < lengthLimit ∧ b = field v ++ rest) ∨
      ∃ reason left, Kind.field.Stops what b reason left := by
  rcases count_cases what b with ⟨n, c, hn, rfl⟩ | ⟨reason, left, hstops⟩
  · rcases Nat.lt_or_ge c.length n with hshort | hlength
    · exact .inr ⟨_, _, .short hn hshort⟩
    · have hv : (c.take n).length < lengthLimit := by rwa [List.length_take_of_le hlength]
      exact .inl ⟨c.take n, c.drop n, hv, count_append_eq_field hlength⟩
  · exact .inr ⟨reason, left, hstops _⟩

theorem run_readCount_of_short (what : String) (h : b.length < countSize) :
    (readCount what).run b = .error (.malformedPayload
      s!"truncated length prefix for {what}: {b.length} bytes left") b := by
  simp only [readCount, EStateM.run_bind, EStateM.run_get, if_pos h]
  rfl

/-- A count whose highest bit is set is no length. -/
theorem run_readCount_of_le (what : String) (rest : Bytes) (hn : lengthLimit ≤ n)
    (hn' : n < 2 * lengthLimit) :
    (readCount what).run (count n ++ rest) = .error (.malformedPayload
      s!"invalid length {(n : Int) - 0x10000000000000000} for {what}") rest := by
  rw [run_readCount what rest (length_count n), toNatBE_count hn', if_neg (Nat.not_lt.2 hn)]

/-- A field that declares more bytes than are left is none. -/
theorem run_readField_of_short (what : String) (hn : n < lengthLimit) (h : rest.length < n) :
    (readField what).run (count n ++ rest) = .error (.malformedPayload
      s!"{what} declares {n} bytes but only {rest.length} remain") rest := by
  rw [readField, run_bind_of_ok (takes_count what hn rest)]
  simp only [EStateM.run_bind, EStateM.run_get, if_pos h]
  rfl

/-- Every read begins with that of a count, and stops if it does. -/
theorem Kind.run_read_of_count {e : EnclaveError} (h : (readCount what).run b = .error e left) :
    ∀ k : Kind, (k.read what).run b = .error e left
  | count => h
  | field => run_bind_of_error h
  | array => run_bind_of_error h

theorem run_readFields_of_error {e : EnclaveError} (h : (readField what).run c = .error e left) :
    ∀ {n : Nat} {items : List Bytes}, (∀ v ∈ items, v.length < lengthLimit) → items.length < n →
      (readFields what n).run (items.flatMap field ++ c) = .error e left
  | n + 1, [], _, _ => run_bind_of_error h
  | n + 1, v :: items, hitems, hlt => by
    obtain ⟨hv, hitems⟩ := List.forall_mem_cons.1 hitems
    rw [readFields, List.flatMap_cons, List.append_assoc, run_bind_of_ok (takes_field what hv _)]
    exact run_bind_of_error (run_readFields_of_error h hitems (Nat.lt_of_succ_lt_succ hlt))

theorem Kind.Stops.run_read {k : Kind} (h : k.Stops what b reason left) :
    (k.read what).run b = .error (.malformedPayload reason) left := by
  induction h with
  | truncated h => exact run_read_of_count (run_readCount_of_short what h) _
  | negative hn hn' => exact run_read_of_count (run_readCount_of_le what _ hn hn') _
  | short hn h => exact run_readField_of_short what hn h
  | item hn hlt hitems _ ih =>
    exact (run_bind_of_ok (takes_count what hn _)).trans (run_readFields_of_error ih hitems hlt)

/-- What is left where a read stops is an end of what was read. -/
theorem Kind.Stops.isSuffix {k : Kind} (h : k.Stops what b reason left) : left <:+ b := by
  induction h with
  | truncated _ => exact List.suffix_rfl
  | negative _ _ => exact List.suffix_append _ _
  | short _ _ => exact List.suffix_append _ _
  | item _ _ _ _ ih => exact (ih.trans (List.suffix_append _ _)).trans (List.suffix_append _ _)

end Parts

/-! ## What is read -/

section Fields

variable {what : String} {b rest : Bytes}

/-- **A length is read** off the front of byte strings that begin with it, and of no others. -/
theorem run_readCount_iff {n : Nat} :
    (readCount what).run b = .ok n rest ↔ n < lengthLimit ∧ b = count n ++ rest := by
  constructor
  · intro h
    rcases count_cases what b with ⟨m, c, hm, rfl⟩ | ⟨reason, left, hstops⟩
    · rw [takes_count what hm] at h
      cases h
      exact ⟨hm, rfl⟩
    · exact nomatch h.symm.trans (hstops .count).run_read
  · rintro ⟨hn, rfl⟩
    exact takes_count what hn rest

theorem decides_readCount (what : String) : (readCount what).Decides := by
  intro b
  rcases count_cases what b with ⟨n, rest, hn, rfl⟩ | ⟨reason, left, hstops⟩
  · exact .inl ⟨n, rest, takes_count what hn rest⟩
  · exact .inr ⟨reason, left, (hstops .count).run_read⟩

/-- **A field is read** off the front of byte strings that begin with it, and of no others. -/
theorem run_readField_iff {v : Bytes} :
    (readField what).run b = .ok v rest ↔ v.length < lengthLimit ∧ b = field v ++ rest := by
  constructor
  · intro h
    rcases field_cases what b with ⟨w, c, hw, rfl⟩ | ⟨reason, left, hstops⟩
    · rw [takes_field what hw] at h
      cases h
      exact ⟨hw, rfl⟩
    · exact nomatch h.symm.trans hstops.run_read
  · rintro ⟨hv, rfl⟩
    exact takes_field what hv rest

theorem decides_readField (what : String) : (readField what).Decides := by
  intro b
  rcases field_cases what b with ⟨v, rest, hv, rfl⟩ | ⟨reason, left, hstops⟩
  · exact .inl ⟨v, rest, takes_field what hv rest⟩
  · exact .inr ⟨reason, left, hstops.run_read⟩

theorem run_readFields_iff : ∀ {n : Nat} {items : List Bytes} {b : Bytes},
    (readFields what n).run b = .ok items rest ↔
      items.length = n ∧ (∀ v ∈ items, v.length < lengthLimit) ∧
        b = items.flatMap field ++ rest
  | 0, items, b => by
    rw [readFields, run_pure_iff]
    constructor
    · rintro ⟨rfl, rfl⟩
      simp
    · rintro ⟨hlen, _, rfl⟩
      rw [List.eq_nil_of_length_eq_zero hlen]
      exact ⟨rfl, rfl⟩
  | n + 1, items, b => by
    constructor
    · intro h
      rw [readFields] at h
      obtain ⟨v, c, hv, hrest⟩ := run_bind_iff.1 h
      obtain ⟨vs, d, hvs, hpure⟩ := run_bind_iff.1 hrest
      obtain ⟨rfl, rfl⟩ := run_pure_iff.1 hpure
      obtain ⟨hlen, rfl⟩ := run_readField_iff.1 hv
      obtain ⟨rfl, hall, rfl⟩ := run_readFields_iff.1 hvs
      refine ⟨rfl, List.forall_mem_cons.2 ⟨hlen, hall⟩, ?_⟩
      rw [List.flatMap_cons, List.append_assoc]
    · rintro ⟨hlen, hall, rfl⟩
      rw [← hlen]
      exact takes_fields what hall rest

theorem decides_readFields (what : String) : ∀ n, (readFields what n).Decides
  | 0 => Reader.decides_pure []
  | n + 1 => by
    rw [readFields]
    refine (decides_readField what).bind fun v => ?_
    exact (decides_readFields what n).bind fun vs => Reader.decides_pure _

/-- **An array is read** off the front of byte strings that begin with it, and of no others. -/
theorem run_readArray_iff {items : List Bytes} :
    (readArray what).run b = .ok items rest ↔
      items.length < lengthLimit ∧ (∀ v ∈ items, v.length < lengthLimit) ∧
        b = array items ++ rest := by
  constructor
  · intro h
    rw [readArray] at h
    obtain ⟨n, c, hcount, hitems⟩ := run_bind_iff.1 h
    obtain ⟨hn, rfl⟩ := run_readCount_iff.1 hcount
    obtain ⟨rfl, hall, rfl⟩ := run_readFields_iff.1 hitems
    refine ⟨hn, hall, ?_⟩
    rw [array, List.append_assoc]
  · rintro ⟨hn, hall, rfl⟩
    exact takes_array what hn hall rest

theorem decides_readArray (what : String) : (readArray what).Decides :=
  (decides_readCount what).bind (decides_readFields what)

end Fields

end SealedTx.Fields
