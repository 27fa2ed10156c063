import SealedTx.Error

/-!
# Wire formats and the versions that know them

A payload has two wire formats. A node knows the newer one from version 5.0 on, so it is chosen
for a peer if any version that the peer names is that or a later one.
-/

namespace SealedTx

/-- A wire format of payloads. -/
inductive Codec where
  /-- The field format, which every version knows. -/
  | legacy
  /-- The map format. -/
  | cbor
deriving DecidableEq, Repr

/-- The two leading numbers of a version. -/
structure Version where
  major : Nat
  minor : Nat
deriving DecidableEq, Repr

namespace Version

/-- Whether a version is the same as another or comes after it. -/
def atLeast (v w : Version) : Bool :=
  w.major < v.major || (v.major = w.major && w.minor ≤ v.minor)

/-- The number that decimal digits stand for. -/
def digitsValue? : List Char → Option Nat
  | [] => none
  | ds => if ds.all Char.isDigit then some (ds.foldl (fun n d => n * 10 + (d.toNat - 48)) 0)
    else none

/-- Reads a number of at most 32 bits, before which a plus sign may stand. -/
def number? (ds : List Char) : Option Nat :=
  let digits := match ds with
    | '+' :: rest => rest
    | ds => ds
  (digitsValue? digits).filter (· < 0x100000000)

/-- The characters before the first dot, and those behind it if there is one. -/
def splitDot : List Char → List Char × Option (List Char)
  | [] => ([], none)
  | '.' :: rest => ([], some rest)
  | c :: rest => let (part, tail) := splitDot rest; (c :: part, tail)

/-- A version without the letter that may stand before it. -/
def dropLetter : List Char → List Char
  | 'v' :: rest => rest
  | 'V' :: rest => rest
  | cs => cs

/-- Reads a version text: one number or two, dots between them and whatever follows the second
dot. -/
def parse? (text : String) : Option Version := do
  let (major, tail) := splitDot (dropLetter (Text.trimChars text.toList))
  let major ← number? major
  match tail with
  | none => return ⟨major, 0⟩
  | some tail => return ⟨major, ← number? (splitDot tail).1⟩

/-- The text of a version. -/
def text (v : Version) : String := s!"{v.major}.{v.minor}"

end Version

namespace Codec

/-- All formats, the older first. -/
def all : List Codec := [legacy, cbor]

/-- The name of a format. -/
def name : Codec → String
  | legacy => "legacy"
  | cbor => "cbor"

/-- The format of exactly a name. -/
def ofName? (s : String) : Option Codec := all.find? fun c => c.name == s

/-- Reads the name of a format, whatever its case and the blanks around it. -/
def parse (text : String) : Except EnclaveError Codec :=
  let lowered := Text.lowerAscii (Text.trim text)
  match ofName? lowered with
  | some c => .ok c
  | none => .error (.value (.invalidInput "codec" s!"unknown payload codec '{lowered}'"))

/-- The format that is written unless another is asked for. -/
def current : Codec := cbor

/-- The first version that knows a format. -/
def minimumVersion : Codec → Version
  | legacy => ⟨1, 0⟩
  | cbor => ⟨5, 0⟩

/-- The format to write for a peer that names its versions; texts that are none do not count. -/
def preferred (versions : List String) : Codec :=
  if (versions.filterMap Version.parse?).any (·.atLeast cbor.minimumVersion) then cbor else legacy

end Codec

end SealedTx
