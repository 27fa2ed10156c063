import SealedTx.Bytes
import SealedTx.Text.Quoted
import SealedTx.Decimal.Shortest

/-!
# CBOR values

The data items of the Concise Binary Object Representation, as a payload's newer wire format is
made of them, and the text by which an error message shows one that it did not expect.
-/

namespace SealedTx.Cbor

/-- A data item. -/
inductive Value where
  /-- An integer from `-2 ^ 64` to below `2 ^ 64`. -/
  | integer (n : Int)
  | bytes (b : Bytes)
  /-- A floating point number, as the bits of a double. -/
  | float (bits : UInt64)
  | text (s : String)
  | bool (b : Bool)
  | null
  | tag (n : Nat) (item : Value)
  | array (items : List Value)
  | map (entries : List (Value × Value))
deriving Repr

namespace Value

/-! ## Text for messages -/

/-- Floats are written positionally from `10 ^ -4` to below `10 ^ 16`, with a place at least. -/
def floatLayout : Decimal.Layout := ⟨-4, 16, 1⟩

/-- The text of a double. -/
def floatText (bits : UInt64) : String :=
  let signed (negative : Bool) (s : String) := if negative then "-" ++ s else s
  match Decimal.Double.ofBits bits with
  | .notANumber => "NaN"
  | .infinite negative => signed negative "inf"
  | .zero negative => signed negative "0.0"
  | .finite negative m q narrow =>
    signed negative (String.ofList ((Decimal.shortest m q narrow).layOut floatLayout))

mutual

/-- The text of an item. -/
def debug : Value → String
  | integer n => s!"Integer(Integer({n}))"
  | bytes b => "Bytes([" ++ ", ".intercalate (b.map fun d => toString d.toNat) ++ "])"
  | float bits => "Float(" ++ floatText bits ++ ")"
  | text s => "Text(" ++ Text.quote s ++ ")"
  | bool b => "Bool(" ++ (if b then "true" else "false") ++ ")"
  | null => "Null"
  | tag n item => s!"Tag({n}, " ++ debug item ++ ")"
  | array items => "Array([" ++ ", ".intercalate (debugItems items) ++ "])"
  | map entries => "Map([" ++ ", ".intercalate (debugEntries entries) ++ "])"

/-- The texts of the items of an array. -/
def debugItems : List Value → List String
  | [] => []
  | item :: rest => debug item :: debugItems rest

/-- The texts of the entries of a map. -/
def debugEntries : List (Value × Value) → List String
  | [] => []
  | (k, v) :: rest => ("(" ++ debug k ++ ", " ++ debug v ++ ")") :: debugEntries rest

end

end Value

end SealedTx.Cbor
