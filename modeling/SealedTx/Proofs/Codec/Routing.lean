import SealedTx.Proofs.Codec.Detect

/-!
# The first byte tells the format

Not only what is written, but all that either format accepts begins as the format's payloads do: a
payload in the field format with a zero, since the length of a sender's key is 32, and one in the
map format with the head of a map, since no other item is read as a map, be it tagged or not
(`Cbor.exists_readHead_of_map`). So telling the formats apart by the first byte rejects nothing that
one of them accepts (`decodeAny_iff`).
-/

/-! ## Which items are maps -/

namespace SealedTx.Cbor

variable {α β : Type} {r : Reader α} {f : α → Reader β} {b rest : Bytes}

theorem run_bind_iff {d : β} : StateT.run (r >>= f) b = .ok (d, rest) ↔
    ∃ a c, r.run b = .ok (a, c) ∧ (f a).run c = .ok (d, rest) := by
  rw [StateT.run_bind, Outcome.bind_eq_ok_iff]
  exact ⟨fun ⟨e, h⟩ => ⟨e.1, e.2, h⟩, fun ⟨a, c, h⟩ => ⟨(a, c), h⟩⟩

/-- Whether all that a reader makes of any bytes is so. -/
def Reader.Returns (r : Reader α) (P : α → Prop) : Prop :=
  ∀ b a rest, r.run b = .ok (a, rest) → P a

theorem Reader.returns_pure {P : α → Prop} {a : α} (h : P a) : Reader.Returns (pure a) P := by
  intro b a' rest hrun
  cases hrun
  exact h

theorem Reader.returns_throw {P : α → Prop} (e : Fault) :
    Reader.Returns (throw e : Reader α) P := by
  intro b a rest hrun
  cases hrun

theorem Reader.returns_bind {P : β → Prop} (h : ∀ a, (f a).Returns P) :
    Reader.Returns (r >>= f) P := by
  intro b d rest hrun
  obtain ⟨a, c, _, hf⟩ := run_bind_iff.1 hrun
  exact h a c d rest hf

def Value.IsMap : Value → Prop
  | map _ => True
  | _ => False

theorem Value.not_isMap_ofInt (n : Int) : ¬(Value.ofInt n).IsMap := by
  unfold Value.ofInt
  dsimp only
  split
  · exact id
  · split <;> exact id

theorem returns_simpleValue (n : Nat) : (simpleValue n).Returns fun v => ¬v.IsMap := by
  unfold simpleValue
  split
  · exact Reader.returns_pure id
  · exact Reader.returns_pure id
  · exact Reader.returns_pure id
  · exact Reader.returns_pure id
  · exact Reader.returns_throw _

theorem returns_bigNumber (tag length : Nat) :
    (bigNumber tag length).Returns fun v => ¬v.IsMap := by
  unfold bigNumber
  refine Reader.returns_bind fun _ => Reader.returns_bind fun bytes => ?_
  dsimp only
  split
  · exact Reader.returns_pure (Value.not_isMap_ofInt _)
  · split
    · exact Reader.returns_pure (Value.not_isMap_ofInt _)
    · exact Reader.returns_throw _

/-- **Only an item with the head of a map is read as a map.** -/
theorem exists_readHead_of_map {inner : Option (Reader Value)} {entries : List (Value × Value)}
    (h : (itemOver inner).run b = .ok (.map entries, rest)) :
    ∃ length c, readHead.run b = .ok (.map length, c) := by
  unfold itemOver at h
  obtain ⟨head, c, hhead, hitem⟩ := run_bind_iff.1 h
  have hmap : ∀ {r : Reader Value}, r.Returns (fun v => ¬v.IsMap) →
      r.run c ≠ .ok (.map entries, rest) :=
    fun hr hrun => hr _ _ _ hrun trivial
  cases head with
  | map length => exact ⟨length, c, hhead⟩
  | unsigned n | negative n | float bits =>
    exact absurd hitem (hmap (Reader.returns_pure id))
  | bytes length =>
    exact absurd hitem (hmap (Reader.returns_bind fun _ => Reader.returns_pure id))
  | text length =>
    refine absurd hitem (hmap (Reader.returns_bind fun bytes => ?_))
    split
    · exact Reader.returns_pure id
    · exact Reader.returns_throw _
  | simple n => exact absurd hitem (hmap (returns_simpleValue n))
  | stop => exact absurd hitem (hmap (Reader.returns_throw _))
  | array length =>
    refine absurd hitem (hmap (Reader.returns_bind fun _ => Reader.returns_bind fun _ => ?_))
    exact Reader.returns_pure id
  | tag n =>
    refine absurd hitem (hmap (Reader.returns_bind fun head' => ?_))
    split
    · exact returns_bigNumber n _
    · refine Reader.returns_bind fun _ => Reader.returns_bind fun _ => ?_
      exact Reader.returns_pure id

theorem run_take_iff {n : Nat} {a : Bytes} :
    (take n).run b = .ok (a, rest) ↔ b = a ++ rest ∧ a.length = n := by
  constructor
  · intro h
    obtain ⟨b', c, hget, hrest⟩ := run_bind_iff.1 h
    cases hget
    by_cases hlength : b.length < n
    · simp only [if_pos hlength] at hrest
      obtain ⟨_, _, hthrow, _⟩ := run_bind_iff.1 hrest
      cases hthrow
    · simp only [if_neg hlength] at hrest
      cases hrest
      exact ⟨(List.take_append_drop n b).symm, List.length_take_of_le (Nat.le_of_not_lt hlength)⟩
  · rintro ⟨rfl, hlength⟩
    exact takes_take hlength rest

theorem specialHead_ne_map (minor : Nat) (argument length : Option Nat) :
    specialHead minor argument ≠ .map length := by
  unfold specialHead
  cases argument with
  | none => nofun
  | some n =>
    dsimp only
    repeat' split
    all_goals nofun

/-- The head of a map has major type five. -/
theorem eq_cons_of_readHead_map {length : Option Nat} {c : Bytes}
    (h : readHead.run b = .ok (.map length, c)) : ∃ d rest, b = d :: rest ∧ d.toNat / 32 = 5 := by
  unfold readHead at h
  obtain ⟨first, rest, htake, hfirst⟩ := run_bind_iff.1 h
  obtain ⟨rfl, hlength⟩ := run_take_iff.1 htake
  obtain ⟨d, rfl⟩ := List.length_eq_one_iff.1 hlength
  refine ⟨d, rest, rfl, ?_⟩
  obtain ⟨argument, c', hargument, hhead⟩ := run_bind_iff.1 hfirst
  have hd : Bytes.toNatLE [d] = d.toNat := by simp [Bytes.toNatLE]
  rw [hd] at hhead
  split at hhead
  case h_6 hfive => exact hfive
  case h_8 =>
    have hspecial := congrArg (fun r => r.toOption.map (·.1)) hhead
    exact absurd (Option.some.inj hspecial) (specialHead_ne_map _ _ _)
  all_goals cases hhead

/-- **An item that is read as a map begins with the head of a map.** -/
theorem eq_cons_of_parse_map {entries : List (Value × Value)}
    (h : parse b = .ok (.map entries, rest)) : ∃ d c, b = d :: c ∧ 0xA0 ≤ d ∧ d ≤ 0xBF := by
  obtain ⟨length, c, hhead⟩ := exists_readHead_of_map h
  obtain ⟨d, c, rfl, hd⟩ := eq_cons_of_readHead_map hhead
  refine ⟨d, c, rfl, ?_, ?_⟩
  · show 0xA0 ≤ d.toNat
    omega
  · show d.toNat ≤ 0xBF
    omega

end SealedTx.Cbor

/-! ## What each format accepts -/

namespace SealedTx.Codec

theorem Named.eq_cons_of_decode {b : Bytes} {p : Payload} (h : Named.decode b = .ok p) :
    ∃ d c, b = d :: c ∧ 0xA0 ≤ d ∧ d ≤ 0xBF := by
  unfold Named.decode at h
  split at h
  next v rest hparse =>
    unfold Named.ofValue at h
    split at h
    · exact Cbor.eq_cons_of_parse_map hparse
    · cases h
  · cases h

theorem Legacy.eq_cons_of_decode {b : Bytes} {p : Payload} (h : Legacy.decode b = .ok p) :
    ∃ c, b = 0 :: c :=
  (decode_eq_ok_iff.1 h).eq_cons

/-- **What a format accepts is told to be in the format.** -/
theorem detect_of_decode (c : Codec) {b : Bytes} {p : Payload} (h : c.decode b = .ok p) :
    detect b = .ok c := by
  cases c with
  | legacy =>
    obtain ⟨c, rfl⟩ := Legacy.eq_cons_of_decode h
    rfl
  | cbor =>
    obtain ⟨d, c, rfl, hd⟩ := Named.eq_cons_of_decode h
    exact if_pos hd

/-- **The formats are told apart without fail**: a byte string is accepted if one of the formats
accepts it, as the same payload; no byte string is accepted by both; and the format that is told is
the one that accepts. -/
theorem decodeAny_iff (b : Bytes) :
    (∀ p, decodeAny b = .ok p ↔ Legacy.decode b = .ok p ∨ Named.decode b = .ok p) ∧
      ¬((∃ p, Legacy.decode b = .ok p) ∧ ∃ p, Named.decode b = .ok p) ∧
      ∀ c p, decode c b = .ok p ↔ detect b = .ok c ∧ decodeAny b = .ok p := by
  have hany : ∀ {c p}, decode c b = .ok p → decodeAny b = .ok p := fun {c} _ hdecode =>
    Outcome.bind_eq_ok_iff.2 ⟨c, detect_of_decode c hdecode, hdecode⟩
  refine ⟨fun p => ⟨fun h => ?_, fun h => ?_⟩, ?_, fun c p => ⟨fun h => ?_, fun h => ?_⟩⟩
  · obtain ⟨c, _, hdecode⟩ := Outcome.bind_eq_ok_iff.1 h
    cases c with
    | legacy => exact .inl hdecode
    | cbor => exact .inr hdecode
  · rcases h with h | h
    · exact hany (c := legacy) h
    · exact hany (c := cbor) h
  · rintro ⟨⟨p, hlegacy⟩, q, hnamed⟩
    have hdetect := detect_of_decode legacy hlegacy
    rw [detect_of_decode cbor hnamed] at hdetect
    cases hdetect
  · exact ⟨detect_of_decode c h, hany h⟩
  · obtain ⟨hdetect, h⟩ := h
    rw [decodeAny, hdetect] at h
    exact h

end SealedTx.Codec
