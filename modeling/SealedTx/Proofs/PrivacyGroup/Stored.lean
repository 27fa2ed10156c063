import SealedTx.Proofs.Codec.Grammar
import SealedTx.Proofs.PrivacyGroup.Identity

/-!
# The stored form of a group

The stored form of a group has one reading: a byte string is read as a group exactly if it begins
with what is written for that group, and the group's id is the one that is derived from the rest
(`run_read_iff`). So the id that a group carried when it was written is not there to be read, and
all else is (`stored_form`). The id that it has then is a hash of what was read (`id_of_decode`).

A name in the stored form is the exact name of a type or a state, so each of these has one
spelling too (`GroupType.parse_eq_ok_iff`, `GroupState.parse_eq_ok_iff`).
-/

namespace SealedTx

open Fields

/-! ## Texts and names -/

theorem Bytes.toText?_eq_some_iff {b : Bytes} {s : String} : toText? b = some s ↔ b = ofText s := by
  constructor
  · intro h
    exact (ofText_of_toText? h).symm
  · rintro rfl
    exact toText?_ofText s

/-- What is looked up by its name is found by no other text. -/
theorem find?_named_iff {α : Type} {all : List α} {name : α → String} {s : String} {t : α}
    (hall : ∀ t, all.find? (fun u => name u == name t) = some t) :
    all.find? (fun u => name u == s) = some t ↔ s = name t := by
  constructor
  · intro h
    have hname := List.find?_some h
    simp only [beq_iff_eq] at hname
    exact hname.symm
  · rintro rfl
    exact hall t

theorem GroupType.parse_eq_ok_iff {s : String} {t : GroupType} : parse s = .ok t ↔ s = t.name := by
  have hname : ofName? s = some t ↔ s = t.name := find?_named_iff fun t => by cases t <;> decide
  rw [← hname]
  unfold parse
  cases ofName? s <;> simp

theorem GroupState.parse_eq_ok_iff {s : String} {t : GroupState} :
    parse s = .ok t ↔ s = t.name := by
  have hname : ofName? s = some t ↔ s = t.name := find?_named_iff fun t => by cases t <;> decide
  rw [← hname]
  unfold parse
  cases ofName? s <;> simp

namespace PrivacyGroup

/-- Whether all lengths of a group's parts can be written. -/
structure Sized (g : PrivacyGroup) : Prop where
  name : (Bytes.ofText g.name).length < lengthLimit
  description : (Bytes.ofText g.description).length < lengthLimit
  members : g.members.length < lengthLimit
  seed : g.seed.length < lengthLimit

theorem length_typeName (t : GroupType) : (Bytes.ofText t.name).length < lengthLimit := by
  cases t <;> decide

theorem length_stateName (t : GroupState) : (Bytes.ofText t.name).length < lengthLimit := by
  cases t <;> decide

/-! ## Parts -/

section Parts

variable {b rest : Bytes} {what : String}

theorem run_readText_iff {s : String} : (readText what).run b = .ok s rest ↔
    (Bytes.ofText s).length < lengthLimit ∧ b = field (Bytes.ofText s) ++ rest := by
  unfold readText
  rw [run_bind_iff]
  constructor
  · rintro ⟨v, c, hv, htext⟩
    split at htext
    next t ht =>
      obtain ⟨rfl, rfl⟩ := run_pure_iff.1 htext
      obtain rfl := Bytes.toText?_eq_some_iff.1 ht
      exact run_readField_iff.1 hv
    next => cases htext
  · intro h
    refine ⟨_, rest, run_readField_iff.2 h, ?_⟩
    simp only [Bytes.toText?_ofText]
    rfl

theorem decides_readText (what : String) : (readText what).Decides := by
  unfold readText
  refine (decides_readField what).bind fun v => ?_
  split
  · exact Reader.decides_pure _
  · exact Reader.decides_throw _

theorem run_readResult_iff {α : Type} {x : Except EnclaveError α} {a : α} :
    (readResult x).run b = .ok a rest ↔ x = .ok a ∧ rest = b := by
  cases x with
  | ok v =>
    unfold readResult
    rw [run_pure_iff, Except.ok.injEq, eq_comm (a := a)]
  | error e =>
    constructor
    · intro h
      cases h
    · rintro ⟨h, _⟩
      cases h

theorem decides_readType (s : String) : (readResult (GroupType.parse s)).Decides := by
  unfold GroupType.parse
  split
  · exact Reader.decides_pure _
  · exact Reader.decides_throw _

theorem decides_readState (s : String) : (readResult (GroupState.parse s)).Decides := by
  unfold GroupState.parse
  split
  · exact Reader.decides_pure _
  · exact Reader.decides_throw _

/-- A member is read as any other key. -/
theorem readMember_eq : readMember = Codec.Legacy.readKey "group member" := by
  funext v
  have hwording : ("invalid " ++ "group member" ++ ": " : String) = "invalid group member: " := by
    decide
  unfold readMember Codec.Legacy.readKey
  cases (Key.ofBytes v : Except ValueError PublicKey) with
  | ok k => rfl
  | error e => simp only [toString, hwording]

end Parts

/-! ## The whole group -/

theorem encode_withId (g : PrivacyGroup) (id : GroupId) : encode { g with id := id } = g.encode :=
  rfl

/-- **A group is read** off the front of byte strings that begin with its stored form, and of no
others, and it has the id that is derived. -/
theorem run_read_iff {b rest : Bytes} {g : PrivacyGroup} : read.run b = .ok g rest ↔
    g.Sized ∧ g.id = g.deriveId ∧ b = g.encode ++ rest := by
  unfold read
  rw [readMember_eq]
  constructor
  · intro h
    obtain ⟨name, b₁, hname, h₁⟩ := run_bind_iff.1 h
    obtain ⟨description, b₂, hdescription, h₂⟩ := run_bind_iff.1 h₁
    obtain ⟨vs, b₃, hvs, h₃⟩ := run_bind_iff.1 h₂
    obtain ⟨members, b₄, hks, h₄⟩ := run_bind_iff.1 h₃
    obtain ⟨seed, b₅, hseed, h₅⟩ := run_bind_iff.1 h₄
    obtain ⟨typeName, b₆, htype, h₆⟩ := run_bind_iff.1 h₅
    obtain ⟨type, b₇, hparseType, h₇⟩ := run_bind_iff.1 h₆
    obtain ⟨stateName, b₈, hstate, h₈⟩ := run_bind_iff.1 h₇
    obtain ⟨state, b₉, hparseState, h₉⟩ := run_bind_iff.1 h₈
    obtain ⟨rfl, rfl⟩ := run_pure_iff.1 h₉
    obtain ⟨hlname, rfl⟩ := run_readText_iff.1 hname
    obtain ⟨hldescription, rfl⟩ := run_readText_iff.1 hdescription
    obtain ⟨hlmembers, rfl⟩ :=
      Codec.Legacy.run_keyArray_iff.1 (run_bind_iff.2 ⟨vs, b₃, hvs, hks⟩)
    obtain ⟨hlseed, rfl⟩ := run_readField_iff.1 hseed
    obtain ⟨_, rfl⟩ := run_readText_iff.1 htype
    obtain ⟨htypeName, rfl⟩ := run_readResult_iff.1 hparseType
    obtain rfl := GroupType.parse_eq_ok_iff.1 htypeName
    obtain ⟨_, rfl⟩ := run_readText_iff.1 hstate
    obtain ⟨hstateName, rfl⟩ := run_readResult_iff.1 hparseState
    obtain rfl := GroupState.parse_eq_ok_iff.1 hstateName
    refine ⟨⟨hlname, hldescription, hlmembers, hlseed⟩, rfl, ?_⟩
    unfold encode
    simp only [List.append_assoc]
  · rintro ⟨hg, hid, rfl⟩
    have hmembers : ∀ c, EStateM.run
        (do (← readArray "group members").mapM (Codec.Legacy.readKey "group member"))
        (array (g.members.map Key.bytes) ++ c) = .ok g.members c :=
      fun _ => Codec.Legacy.run_keyArray_iff.2 ⟨hg.members, rfl⟩
    unfold encode
    simp only [List.append_assoc]
    refine run_bind_iff.2 ⟨_, _, run_readText_iff.2 ⟨hg.name, rfl⟩, ?_⟩
    refine run_bind_iff.2 ⟨_, _, run_readText_iff.2 ⟨hg.description, rfl⟩, ?_⟩
    -- the keys are taken off the array in a second step
    obtain ⟨vs, c, hvs, hks⟩ := run_bind_iff.1 (hmembers _)
    refine run_bind_iff.2 ⟨vs, c, hvs, run_bind_iff.2 ⟨g.members, _, hks, ?_⟩⟩
    refine run_bind_iff.2 ⟨_, _, run_readField_iff.2 ⟨hg.seed, rfl⟩, ?_⟩
    refine run_bind_iff.2 ⟨_, _, run_readText_iff.2 ⟨length_typeName g.type, rfl⟩, ?_⟩
    refine run_bind_iff.2
      ⟨_, _, run_readResult_iff.2 ⟨GroupType.parse_eq_ok_iff.2 rfl, rfl⟩, ?_⟩
    refine run_bind_iff.2 ⟨_, _, run_readText_iff.2 ⟨length_stateName g.state, rfl⟩, ?_⟩
    refine run_bind_iff.2
      ⟨_, _, run_readResult_iff.2 ⟨GroupState.parse_eq_ok_iff.2 rfl, rfl⟩, ?_⟩
    refine run_pure_iff.2 ⟨?_, rfl⟩
    show g = { g with id := g.deriveId }
    rw [← hid]

theorem decides_read : read.Decides := by
  unfold read
  rw [readMember_eq]
  refine (decides_readText _).bind fun name => (decides_readText _).bind fun description => ?_
  refine (decides_readArray _).bind fun vs => ?_
  refine (Reader.decides_mapM (Codec.Legacy.decides_readKey _) vs).bind fun members => ?_
  refine (decides_readField _).bind fun seed => ?_
  refine (decides_readText _).bind fun typeName => (decides_readType _).bind fun type => ?_
  refine (decides_readText _).bind fun stateName => (decides_readState _).bind fun state => ?_
  exact Reader.decides_pure _

theorem decode_eq_ok_iff {b : Bytes} {g : PrivacyGroup} :
    decode b = .ok g ↔ g.Sized ∧ g.id = g.deriveId ∧ ∃ rest, b = g.encode ++ rest := by
  unfold decode
  rw [eval_eq_ok_iff]
  constructor
  · rintro ⟨rest, h⟩
    obtain ⟨hg, hid, hb⟩ := run_read_iff.1 h
    exact ⟨hg, hid, rest, hb⟩
  · rintro ⟨hg, hid, rest, hb⟩
    exact ⟨rest, run_read_iff.2 ⟨hg, hid, hb⟩⟩

/-- What is written for a group is read as the group with the id that is derived, whatever follows
it. -/
theorem takes_read {g : PrivacyGroup} (hg : g.Sized) :
    read.Takes g.encode { g with id := g.deriveId } := by
  intro rest
  rw [← encode_withId g g.deriveId]
  exact run_read_iff.2 ⟨⟨hg.name, hg.description, hg.members, hg.seed⟩, rfl, rfl⟩

/-- No stored form is the beginning of another one, so all of a group but its id is told by it. -/
theorem encode_append_inj {g g' : PrivacyGroup} {x y : Bytes} (hg : g.Sized) (hg' : g'.Sized)
    (h : g.encode ++ x = g'.encode ++ y) : { g with id := g'.id } = g' ∧ x = y := by
  obtain ⟨hread, hrest⟩ := (takes_read hg).append_inj (takes_read hg') h
  refine ⟨?_, hrest⟩
  cases g
  cases g'
  simp_all

/-- **The id of a group that was read** is the hash of the members and the seed that were read with
it, whatever id the group carried when it was written. -/
theorem id_of_decode {b : Bytes} {g : PrivacyGroup} (h : decode b = .ok g) :
    g.id = ⟨keccak256 (idInput g.members (if g.type = .legacy then none else some g.seed))⟩ := by
  obtain ⟨_, hid, _⟩ := decode_eq_ok_iff.1 h
  rw [hid, deriveId_eq]

/-- **A group is stored in one form, and its id is not part of it.** Byte strings that begin with
what is written for a group are read as that group, if its id is the derived one; all others are
malformed. A group that is written comes back with nothing changed but its id, and two groups have
the same stored form only if they differ in their ids at most. -/
theorem stored_form (b : Bytes) :
    (∀ g, decode b = .ok g ↔ g.Sized ∧ g.id = g.deriveId ∧ ∃ rest, b = g.encode ++ rest) ∧
    ((∃ reason, decode b = .error (.malformedPayload reason)) ↔
      ¬∃ g : PrivacyGroup, g.Sized ∧ g.id = g.deriveId ∧ ∃ rest, b = g.encode ++ rest) ∧
    (∀ g : PrivacyGroup, g.Sized → decode g.encode = .ok { g with id := g.deriveId }) ∧
    ∀ g g' : PrivacyGroup, g.Sized → g'.Sized →
      (g.encode = g'.encode ↔ { g with id := g'.id } = g') := by
  refine ⟨fun g => decode_eq_ok_iff, ?_, fun g hg => ?_, fun g g' hg hg' => ?_⟩
  · simp only [← decode_eq_ok_iff]
    exact Outcome.exists_error_iff fun e => decides_read.malformed_of_eval
  · have hrun := takes_read hg []
    rw [List.append_nil] at hrun
    exact eval_eq_ok_iff.2 ⟨[], hrun⟩
  · constructor
    · intro h
      exact (encode_append_inj hg hg' (congrArg (· ++ []) h)).1
    · intro h
      rw [← encode_withId g g'.id, h]

/-- A deleted group with a name that is not ASCII, a member named twice and an id that is not its
own. -/
def deletedGroup : PrivacyGroup where
  id := ⟨[1]⟩
  name := "gr\u00fcn"
  members := [repeatedKey 2, repeatedKey 1, repeatedKey 2]
  seed := [7]
  type := .resident
  state := .deleted

theorem stored_form_deletedGroup :
    deletedGroup.Sized ∧
      decode (deletedGroup.encode ++ [9]) =
        .ok { deletedGroup with id := deletedGroup.deriveId } ∧
      deletedGroup.encode ≠ encode { deletedGroup with state := .active } := by
  have hsized : deletedGroup.Sized := ⟨by decide, by decide, by decide, by decide⟩
  have hactive : Sized { deletedGroup with state := .active } :=
    ⟨hsized.name, hsized.description, hsized.members, hsized.seed⟩
  -- for any group at first, so that no id has to be worked out
  have hread : ∀ {g : PrivacyGroup}, g.Sized →
      decode (g.encode ++ [9]) = .ok { g with id := g.deriveId } := by
    intro g hg
    exact ((stored_form _).1 _).2 ⟨⟨hg.name, hg.description, hg.members, hg.seed⟩, rfl, [9], rfl⟩
  refine ⟨hsized, hread hsized, fun heq => ?_⟩
  have hstate := congrArg state (((stored_form []).2.2.2 _ _ hsized hactive).1 heq)
  exact nomatch hstate

end PrivacyGroup

end SealedTx
