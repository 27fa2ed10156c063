import SealedTx.Sorted
import SealedTx.Error

/-!
# Privacy modes

A transaction is private in one of four ways. Two of them ask for something more in the payload:
private state validation for an execution hash, mandatory recipients for the keys that have to
be included. `Admits` says which payloads a mode allows, `fault?` finds the first rule broken,
and `fault?_eq_none_iff` ties the two together.
-/

namespace SealedTx

/-- How a transaction is private. -/
inductive PrivacyMode where
  /-- A plain private transaction. -/
  | standardPrivate
  /-- The affected contracts are checked for consistency. -/
  | partyProtection
  /-- Some recipients have to be included. -/
  | mandatoryRecipients
  /-- All recipients validate the private state that results. -/
  | privateStateValidation
deriving DecidableEq, Repr

namespace PrivacyMode

/-- All modes, in the order of their flags. -/
def all : List PrivacyMode :=
  [standardPrivate, partyProtection, mandatoryRecipients, privateStateValidation]

/-- The number that stands for a mode in a payload. -/
def flag : PrivacyMode → UInt8
  | standardPrivate => 0
  | partyProtection => 1
  | mandatoryRecipients => 2
  | privateStateValidation => 3

/-- The mode of a flag; a flag of no mode is read as standard private. -/
def ofFlag (flag : UInt8) : PrivacyMode :=
  if flag = 1 then partyProtection
  else if flag = 2 then mandatoryRecipients
  else if flag = 3 then privateStateValidation
  else standardPrivate

/-- The mode of a number of any size; one that is no flag is read as standard private. -/
def ofInt (n : Int) : PrivacyMode :=
  if 0 ≤ n ∧ n < 256 then ofFlag (UInt8.ofNat n.toNat) else standardPrivate

theorem ofFlag_flag (m : PrivacyMode) : ofFlag m.flag = m := by cases m <;> decide

theorem ofInt_flag (m : PrivacyMode) : ofInt m.flag.toNat = m := by cases m <;> decide

/-- The name of a mode. -/
def name : PrivacyMode → String
  | standardPrivate => "STANDARD_PRIVATE"
  | partyProtection => "PARTY_PROTECTION"
  | mandatoryRecipients => "MANDATORY_RECIPIENTS"
  | privateStateValidation => "PRIVATE_STATE_VALIDATION"

/-- The mode of a name. -/
def ofName? (s : String) : Option PrivacyMode := all.find? fun m => m.name == s

/-! ## What a mode asks for -/

/-- A mode allows an execution hash exactly if it validates state, and mandatory recipients
exactly if it has them. -/
def Admits (m : PrivacyMode) (execHash : Bytes) (mandatory : SortedSet PublicKey) : Prop :=
  (execHash ≠ [] ↔ m = privateStateValidation) ∧
    (mandatory ≠ .empty ↔ m = mandatoryRecipients)

/-- The first rule of the mode that an execution hash and mandatory recipients break. -/
def fault? (m : PrivacyMode) (execHash : Bytes) (mandatory : SortedSet PublicKey) :
    Option EnclaveError :=
  if m = privateStateValidation ∧ execHash = [] then
    some (.malformedPayload "exec hash is required for private state validation")
  else if m ≠ privateStateValidation ∧ execHash ≠ [] then
    some (.malformedPayload "exec hash is only allowed for private state validation")
  else if m = mandatoryRecipients ∧ mandatory = .empty then
    some (.malformedPayload "mandatory recipients are required for mandatory recipients mode")
  else if m ≠ mandatoryRecipients ∧ mandatory ≠ .empty then
    some (.malformedPayload "mandatory recipients are only allowed for mandatory recipients mode")
  else none

theorem fault?_eq_none_iff {m : PrivacyMode} {execHash : Bytes}
    {mandatory : SortedSet PublicKey} :
    m.fault? execHash mandatory = none ↔ m.Admits execHash mandatory := by
  by_cases h2 : execHash = [] <;> by_cases h4 : mandatory = .empty <;> cases m <;>
    simp [fault?, Admits, h2, h4]

end PrivacyMode

end SealedTx
