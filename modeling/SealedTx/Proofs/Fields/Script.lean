import SealedTx.Proofs.Fields

/-!
# Scripts of reads

A script is a list of reads, each of some kind of part and with a name for it in errors. It finds its
parts exactly where the bytes stand, one behind the other, that are written for them
(`run_readAll_iff`). So a script reads back what was written part by part, whatever comes behind it,
and leaves just that.

Any other byte string is malformed: the script stops at the first of its reads that stops
(`StopsIn`), and what is left is an end of the byte string that was read (`StopsIn.isSuffix`). So no
read goes past the end, and no count is believed for which there are not enough bytes, however
great it is (`rejects_field_iff`, `rejects_array_iff`).
-/

namespace SealedTx.Fields

variable {what reason : String} {b c left rest : Bytes}

/-! ## One read -/

/-- **A part is found** exactly where the bytes stand that are written for it. -/
theorem Kind.run_read_iff : ∀ {k : Kind} {v : k.Value},
    (k.read what).run b = .ok v rest ↔ k.Fits v ∧ b = k.write v ++ rest
  | count, _ => run_readCount_iff
  | field, _ => run_readField_iff
  | array, _ => run_readArray_iff.trans and_assoc.symm

section Cases

variable (what)

/-- Either a byte string begins with so many fields, or the read of one of them stops. -/
theorem fields_cases : ∀ (n : Nat) (b : Bytes),
    (∃ (items : List Bytes) (rest : Bytes), items.length = n ∧
      (∀ v ∈ items, v.length < lengthLimit) ∧ b = items.flatMap field ++ rest) ∨
    ∃ (items : List Bytes) (c : Bytes) (reason : String) (left : Bytes), items.length < n ∧
      (∀ v ∈ items, v.length < lengthLimit) ∧ b = items.flatMap field ++ c ∧
        Kind.field.Stops what c reason left
  | 0, b => .inl ⟨[], b, rfl, by simp, rfl⟩
  | n + 1, b => by
    rcases field_cases what b with ⟨v, c, hv, rfl⟩ | ⟨reason, left, hstops⟩
    · rcases fields_cases n c with ⟨items, rest, hlength, hitems, rfl⟩ |
        ⟨items, d, reason, left, hlt, hitems, rfl, hstops⟩
      · refine .inl ⟨v :: items, rest, by simp [hlength], List.forall_mem_cons.2 ⟨hv, hitems⟩, ?_⟩
        rw [List.flatMap_cons, List.append_assoc]
      · refine .inr ⟨v :: items, d, reason, left, by simpa using hlt,
          List.forall_mem_cons.2 ⟨hv, hitems⟩, ?_, hstops⟩
        rw [List.flatMap_cons, List.append_assoc]
    · exact .inr ⟨[], b, reason, left, by simp, by simp, rfl, hstops⟩

/-- Either a byte string begins with a part, or the read of it stops. -/
theorem Kind.part_cases (k : Kind) (b : Bytes) :
    (∃ v rest, k.Fits v ∧ b = k.write v ++ rest) ∨
      ∃ reason left, k.Stops what b reason left := by
  cases k with
  | count =>
    rcases count_cases what b with hfound | ⟨reason, left, hstops⟩
    · exact .inl hfound
    · exact .inr ⟨reason, left, hstops _⟩
  | field => exact field_cases what b
  | array =>
    rcases count_cases what b with ⟨n, c, hn, rfl⟩ | ⟨reason, left, hstops⟩
    · rcases fields_cases what n c with ⟨items, rest, rfl, hitems, rfl⟩ |
        ⟨items, d, reason, left, hlt, hitems, rfl, hstops⟩
      · exact .inl ⟨items, rest, ⟨hn, hitems⟩, (List.append_assoc _ _ _).symm⟩
      · exact .inr ⟨reason, left, .item hn hlt hitems hstops⟩
    · exact .inr ⟨reason, left, hstops _⟩

end Cases

/-! ## Scripts -/

/-- A part with its kind. -/
structure Part where
  kind : Kind
  value : kind.Value

/-- The bytes that are written for a part. -/
def Part.bytes (p : Part) : Bytes := p.kind.write p.value

/-- Whether all counts in a part are lengths. -/
def Part.Fits (p : Part) : Prop := p.kind.Fits p.value

/-- Writes parts one behind the other. -/
def writeAll (parts : List Part) : Bytes := parts.flatMap Part.bytes

theorem writeAll_cons_append (p : Part) (parts : List Part) (rest : Bytes) :
    writeAll (p :: parts) ++ rest = p.bytes ++ (writeAll parts ++ rest) := by
  rw [writeAll, List.flatMap_cons, List.append_assoc, writeAll]

/-- A read of a script: what is read, and what errors call it. -/
structure Step where
  kind : Kind
  what : String

/-- Reads a part of the kind that is asked for. -/
def Step.read (s : Step) : Reader Part := return ⟨s.kind, ← s.kind.read s.what⟩

/-- Reads parts one behind the other. -/
def readAll (steps : List Step) : Reader (List Part) := steps.mapM Step.read

/-- How a script stops: at the first of its reads that stops, where those before it left off. -/
inductive StopsIn : List Step → Bytes → String → Bytes → Prop where
  | here {s : Step} {steps : List Step} {b left : Bytes} {reason : String}
      (h : s.kind.Stops s.what b reason left) : StopsIn (s :: steps) b reason left
  | behind {s : Step} {steps : List Step} {p : Part} {c left : Bytes} {reason : String}
      (hkind : p.kind = s.kind) (hfits : p.Fits) (h : StopsIn steps c reason left) :
      StopsIn (s :: steps) (p.bytes ++ c) reason left

variable {s : Step} {p : Part} {steps : List Step} {parts : List Part}

theorem Step.run_read_iff :
    s.read.run b = .ok p rest ↔ p.kind = s.kind ∧ p.Fits ∧ b = p.bytes ++ rest := by
  rw [Step.read, run_bind_iff]
  simp only [run_pure_iff, Kind.run_read_iff]
  constructor
  · rintro ⟨v, c, ⟨hfits, hb⟩, rfl, rfl⟩
    exact ⟨rfl, hfits, hb⟩
  · obtain ⟨k, v⟩ := p
    rintro ⟨rfl, hfits, hb⟩
    exact ⟨v, rest, ⟨hfits, hb⟩, rfl, rfl⟩

/-- **A script finds its parts** exactly where the bytes stand that are written for them. -/
theorem run_readAll_iff : ∀ {steps : List Step} {parts : List Part} {b : Bytes},
    (readAll steps).run b = .ok parts rest ↔
      parts.map Part.kind = steps.map Step.kind ∧ (∀ p ∈ parts, p.Fits) ∧
        b = writeAll parts ++ rest
  | [], parts, b => by
    rw [readAll, List.mapM_nil, run_pure_iff, List.map_nil, List.map_eq_nil_iff]
    constructor
    · rintro ⟨rfl, rfl⟩
      exact ⟨rfl, by simp, rfl⟩
    · rintro ⟨rfl, _, rfl⟩
      exact ⟨rfl, rfl⟩
  | s :: steps, parts, b => by
    rw [readAll, List.mapM_cons, run_bind_iff]
    simp only [run_bind_iff, run_pure_iff, Step.run_read_iff]
    constructor
    · rintro ⟨p, c, ⟨hkind, hfits, rfl⟩, ps, d, hps, rfl, rfl⟩
      obtain ⟨hkinds, hall, rfl⟩ := run_readAll_iff.1 hps
      exact ⟨by simp [hkind, hkinds], List.forall_mem_cons.2 ⟨hfits, hall⟩,
        (writeAll_cons_append p ps _).symm⟩
    · rintro ⟨hkinds, hall, rfl⟩
      obtain ⟨p, ps, rfl, hkind, hkinds⟩ := List.map_eq_cons_iff.1 hkinds
      obtain ⟨hfits, hall⟩ := List.forall_mem_cons.1 hall
      exact ⟨p, _, ⟨hkind, hfits, writeAll_cons_append p ps rest⟩, ps, rest,
        run_readAll_iff.2 ⟨hkinds, hall, rfl⟩, rfl, rfl⟩

/-- A script fails where it stops, and leaves what its last read leaves. -/
theorem StopsIn.run_readAll (h : StopsIn steps b reason left) :
    (readAll steps).run b = .error (.malformedPayload reason) left := by
  induction h with
  | here h =>
    rw [readAll, List.mapM_cons]
    exact run_bind_of_error (run_bind_of_error h.run_read)
  | behind hkind hfits _ ih =>
    rw [readAll, List.mapM_cons, run_bind_of_ok (Step.run_read_iff.2 ⟨hkind, hfits, rfl⟩)]
    exact run_bind_of_error ih

/-- What is left where a script stops is an end of what was read. -/
theorem StopsIn.isSuffix (h : StopsIn steps b reason left) : left <:+ b := by
  induction h with
  | here h => exact h.isSuffix
  | behind _ _ _ ih => exact ih.trans (List.suffix_append _ _)

/-- Either a byte string begins with the parts that a script reads, or the script stops. -/
theorem script_cases : ∀ (steps : List Step) (b : Bytes),
    (∃ (parts : List Part) (rest : Bytes), parts.map Part.kind = steps.map Step.kind ∧
      (∀ p ∈ parts, p.Fits) ∧ b = writeAll parts ++ rest) ∨
    ∃ reason left, StopsIn steps b reason left
  | [], b => .inl ⟨[], b, rfl, by simp, rfl⟩
  | s :: steps, b => by
    rcases s.kind.part_cases s.what b with ⟨v, c, hfits, rfl⟩ | ⟨reason, left, hstops⟩
    · rcases script_cases steps c with ⟨ps, rest, hkinds, hall, rfl⟩ | ⟨reason, left, hstops⟩
      · exact .inl ⟨⟨s.kind, v⟩ :: ps, rest, by simp [hkinds],
          List.forall_mem_cons.2 ⟨hfits, hall⟩, (writeAll_cons_append ⟨s.kind, v⟩ ps rest).symm⟩
      · exact .inr ⟨reason, left, .behind (p := ⟨s.kind, v⟩) rfl hfits hstops⟩
    · exact .inr ⟨reason, left, .here hstops⟩

/-- **A script stops** exactly where one of its reads does, and finds the bytes malformed. -/
theorem run_readAll_eq_error_iff {e : EnclaveError} :
    (readAll steps).run b = .error e left ↔
      ∃ reason, e = .malformedPayload reason ∧ StopsIn steps b reason left := by
  constructor
  · intro h
    rcases script_cases steps b with ⟨parts, rest, hfound⟩ | ⟨reason, left', hstops⟩
    · rw [run_readAll_iff.2 hfound] at h
      cases h
    · rw [hstops.run_readAll] at h
      cases h
      exact ⟨reason, rfl, hstops⟩
  · rintro ⟨reason, rfl, hstops⟩
    exact hstops.run_readAll

/-! ## Counts that are too great -/

section Counts

variable {n : Nat} (hn : n < 2 * lengthLimit)

include hn

/-- A field is malformed just if its count is no length, or there are fewer bytes. -/
theorem rejects_field_iff :
    (readField what).Rejects (count n ++ c) ↔ lengthLimit ≤ n ∨ c.length < n := by
  rcases Nat.lt_or_ge n lengthLimit with hlt | hle
  · rcases Nat.lt_or_ge c.length n with hshort | hlength
    · exact iff_of_true ⟨_, _, (Kind.Stops.short hlt hshort).run_read⟩ (.inr hshort)
    · have hv : (c.take n).length < lengthLimit := by rwa [List.length_take_of_le hlength]
      have hread : (readField what).run (count n ++ c) = .ok (c.take n) (c.drop n) :=
        run_readField_iff.2 ⟨hv, count_append_eq_field hlength⟩
      exact iff_of_false (fun h => (decides_readField what).rejects_iff.1 h ⟨_, _, hread⟩)
        (by omega)
  · exact iff_of_true ⟨_, _, (Kind.Stops.negative hle hn).run_read (k := .field)⟩ (.inl hle)

/-- An array is malformed just if its count is no length, or there are fewer fields. -/
theorem rejects_array_iff :
    (readArray what).Rejects (count n ++ c) ↔ lengthLimit ≤ n ∨
      ¬∃ (items : List Bytes) (rest : Bytes), items.length = n ∧
        (∀ v ∈ items, v.length < lengthLimit) ∧ c = items.flatMap field ++ rest := by
  rcases Nat.lt_or_ge n lengthLimit with hlt | hle
  · have hrun : (readArray what).run (count n ++ c) = (readFields what n).run c :=
      run_bind_of_ok (takes_count what hlt c)
    rw [(decides_readArray what).rejects_iff, hrun, or_iff_right (Nat.not_le.2 hlt)]
    simp only [run_readFields_iff]
  · exact iff_of_true ⟨_, _, (Kind.Stops.negative hle hn).run_read (k := .array)⟩ (.inl hle)

omit hn in
/-- Every field has at least the bytes of its count. -/
theorem countSize_mul_length_le (items : List Bytes) :
    countSize * items.length ≤ (items.flatMap field).length := by
  induction items with
  | nil => exact Nat.le_refl 0
  | cons v items ih =>
    rw [List.flatMap_cons, List.length_append, field, List.length_append, length_count,
      List.length_cons, Nat.mul_succ]
    omega

theorem rejects_array_of_lt (h : c.length < countSize * n) :
    (readArray what).Rejects (count n ++ c) := by
  refine (rejects_array_iff hn).2 (.inr ?_)
  rintro ⟨items, rest, rfl, _, rfl⟩
  have hle := countSize_mul_length_le items
  rw [List.length_append] at h
  omega

end Counts

/-- **Reading undoes writing, and nothing else is read.** A field, an array and every script of
parts are read off the front of just the byte strings that begin with what is written for them, and
leave the rest. A script that finds no parts stops at one of its reads and finds the bytes malformed,
and whatever it finds, it leaves an end of what it read. A count that is no length, or greater than
what is there, is malformed. -/
theorem script_exact :
    (∀ what b v rest, (readField what).run b = .ok v rest ↔
      b = field v ++ rest ∧ v.length < lengthLimit) ∧
    (∀ what b items rest, (readArray what).run b = .ok items rest ↔
      b = array items ++ rest ∧ items.length < lengthLimit ∧
        ∀ v ∈ items, v.length < lengthLimit) ∧
    (∀ steps b parts rest, (readAll steps).run b = .ok parts rest ↔
      b = writeAll parts ++ rest ∧ parts.map Part.kind = steps.map Step.kind ∧
        ∀ p ∈ parts, p.Fits) ∧
    (∀ steps b e left, (readAll steps).run b = .error e left ↔
      ∃ reason, e = .malformedPayload reason ∧ StopsIn steps b reason left) ∧
    (∀ steps b, ∃ left, left <:+ b ∧ ((∃ parts, (readAll steps).run b = .ok parts left) ∨
      ∃ reason, (readAll steps).run b = .error (.malformedPayload reason) left)) ∧
    ∀ what (n : UInt64) c,
      ((readField what).Rejects (count n.toNat ++ c) ↔
        lengthLimit ≤ n.toNat ∨ c.length < n.toNat) ∧
      ((readArray what).Rejects (count n.toNat ++ c) ↔ lengthLimit ≤ n.toNat ∨
        ¬∃ (items : List Bytes) (rest : Bytes), items.length = n.toNat ∧
          (∀ v ∈ items, v.length < lengthLimit) ∧ c = items.flatMap field ++ rest) ∧
      (c.length < countSize * n.toNat → (readArray what).Rejects (count n.toNat ++ c)) := by
  refine ⟨fun _ _ _ _ => ?_, fun _ _ _ _ => ?_, fun _ _ _ _ => ?_,
    fun _ _ _ _ => run_readAll_eq_error_iff, fun steps b => ?_, fun what n c => ?_⟩
  · rw [run_readField_iff, and_comm]
  · rw [run_readArray_iff, ← and_assoc, and_comm]
  · rw [run_readAll_iff, ← and_assoc, and_comm]
  · rcases script_cases steps b with ⟨parts, rest, hfound⟩ | ⟨reason, left, hstops⟩
    · refine ⟨rest, ?_, .inl ⟨parts, run_readAll_iff.2 hfound⟩⟩
      rw [hfound.2.2]
      exact List.suffix_append _ _
    · exact ⟨left, hstops.isSuffix, .inr ⟨reason, hstops.run_readAll⟩⟩
  · have hn : n.toNat < 2 * lengthLimit := n.toNat_lt
    exact ⟨rejects_field_iff hn, rejects_array_iff hn, rejects_array_of_lt hn⟩

/-- A part of each kind. -/
def sampleParts : List Part :=
  [⟨.count, (3 : Nat)⟩, ⟨.field, ([1, 2] : Bytes)⟩, ⟨.array, ([[7], []] : List Bytes)⟩]

/-- A part of each kind is read back in front of another byte. A field of one byte more than there
are is malformed, and so is an array of as many items as a count can say. -/
theorem script_exact_sample :
    (readAll [⟨.count, "n"⟩, ⟨.field, "f"⟩, ⟨.array, "l"⟩]).run (writeAll sampleParts ++ [9]) =
      .ok sampleParts [9] ∧
    (readField "f").Rejects (count 3 ++ [1, 2]) ∧
    (readArray "l").Rejects (count 0xFFFFFFFFFFFFFFFF ++ [1, 2]) := by
  obtain ⟨_, _, hread, _, _, hcounts⟩ := script_exact
  refine ⟨(hread _ _ _ _).2 ⟨rfl, rfl, ?_⟩, (hcounts "f" 3 [1, 2]).1.2 (.inr (by decide)),
    (hcounts "l" 0xFFFFFFFFFFFFFFFF [1, 2]).2.2 (by decide)⟩
  simp [sampleParts, Part.Fits, Kind.Fits, lengthLimit]

end SealedTx.Fields
