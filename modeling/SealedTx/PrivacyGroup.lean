import SealedTx.Fields
import SealedTx.PrivacyGroup.Rlp
import SealedTx.Hash.Keccak
import SealedTx.Sorted

/-!
# Privacy groups

A named set of members. Its id is a hash of the members, whatever their order and however often
each is named, and of a seed unless the group is of the oldest type. The stored form of a group
does not hold the id: it is derived again when the group is read.
-/

namespace SealedTx

/-- How a group came about. -/
inductive GroupType where
  | legacy
  | pantheon
  | resident
deriving DecidableEq, Repr

namespace GroupType

/-- All types, the one that a group has unless another is asked for first. -/
def all : List GroupType := [legacy, pantheon, resident]

/-- The name of a type. -/
def name : GroupType → String
  | legacy => "LEGACY"
  | pantheon => "PANTHEON"
  | resident => "RESIDENT"

/-- The type of exactly a name. -/
def ofName? (s : String) : Option GroupType := all.find? fun t => t.name == s

/-- Reads the name of a type. -/
def parse (s : String) : Except EnclaveError GroupType :=
  match ofName? s with
  | some t => .ok t
  | none => .error (.malformedPayload s!"unknown group type '{s}'")

end GroupType

/-- Whether a group is in use. -/
inductive GroupState where
  | active
  | deleted
deriving DecidableEq, Repr

namespace GroupState

/-- All states, the one that a group has unless another is asked for first. -/
def all : List GroupState := [active, deleted]

/-- The name of a state. -/
def name : GroupState → String
  | active => "ACTIVE"
  | deleted => "DELETED"

/-- The state of exactly a name. -/
def ofName? (s : String) : Option GroupState := all.find? fun t => t.name == s

/-- Reads the name of a state. -/
def parse (s : String) : Except EnclaveError GroupState :=
  match ofName? s with
  | some t => .ok t
  | none => .error (.malformedPayload s!"unknown group state '{s}'")

end GroupState

/-- A privacy group. -/
structure PrivacyGroup where
  id : GroupId := ⟨[]⟩
  name : String := ""
  description : String := ""
  /-- The members, in the order in which they were named. -/
  members : List PublicKey := []
  seed : Bytes := []
  type : GroupType := .legacy
  state : GroupState := .active
deriving DecidableEq

namespace PrivacyGroup

/-! ## Ids -/

/-- What an id is a hash of: the members in order, each once, and the seed if there is one. -/
def idInput (members : List PublicKey) (seed : Option Bytes) : Bytes :=
  Rlp.list ((SortedSet.ofList members).toList.map Key.bytes ++ seed.toList)

/-- The id of members and a seed. -/
def generateId (members : List PublicKey) (seed : Option Bytes) : Bytes :=
  keccak256 (idInput members seed)

/-- The seed of ids that are only looked up. -/
def lookupSeed : Bytes :=
  [0x53, 0x75, 0xba, 0x87, 0x1e, 0x5c, 0x3d, 0x0f, 0x1d, 0x05,
    0x5b, 0x5d, 0xa0, 0xac, 0x02, 0xea, 0x03, 0x5b, 0xed, 0x38]

/-- The id by which members are looked up. -/
def generateLookupId (members : List PublicKey) : Bytes := generateId members (some lookupSeed)

/-- The seed that takes part in the id of a group. -/
def idSeed (g : PrivacyGroup) : Option Bytes :=
  match g.type with
  | .legacy => none
  | .pantheon | .resident => some g.seed

/-- The id of a group. -/
def deriveId (g : PrivacyGroup) : GroupId := ⟨generateId g.members g.idSeed⟩

/-! ## The stored form -/

open Fields

/-- The stored form of a group. -/
def encode (g : PrivacyGroup) : Bytes :=
  field (Bytes.ofText g.name) ++ field (Bytes.ofText g.description) ++
    array (g.members.map Key.bytes) ++ field g.seed ++ field (Bytes.ofText g.type.name) ++
    field (Bytes.ofText g.state.name)

/-- Reads a text field. -/
def readText (what : String) : Reader String := do
  match Bytes.toText? (← readField what) with
  | some s => return s
  | none => throw (.malformedPayload s!"{what} is not UTF-8")

/-- Takes bytes as the key of a member. -/
def readMember (b : Bytes) : Reader PublicKey :=
  match Key.ofBytes b with
  | .ok k => return k
  | .error e => throw (.malformedPayload s!"invalid group member: {e.message}")

/-- Takes a result for what a reader makes. -/
def readResult {α : Type} : Except EnclaveError α → Reader α
  | .ok a => return a
  | .error e => throw e

/-- Reads a group, whose id is the one derived from the rest. -/
def read : Reader PrivacyGroup := do
  let name ← readText "group name"
  let description ← readText "group description"
  let members ← (← readArray "group members").mapM readMember
  let seed ← readField "group seed"
  let type ← readResult (GroupType.parse (← readText "group type"))
  let state ← readResult (GroupState.parse (← readText "group state"))
  let g : PrivacyGroup := { name, description, members, seed, type, state }
  return { g with id := g.deriveId }

/-- The group whose stored form begins a byte string. -/
def decode (b : Bytes) : Except EnclaveError PrivacyGroup := read.eval b

end PrivacyGroup

end SealedTx
