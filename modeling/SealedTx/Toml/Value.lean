/-!
# TOML values

What a configuration text holds. No setting takes a number with a fraction, a date or a time:
these are read by their rules, but only that they are there is kept.
-/

namespace SealedTx.Toml

/-- A value of a configuration text. -/
inductive Value where
  | text (s : String)
  | integer (n : Int)
  | boolean (b : Bool)
  /-- A number with a fraction or an exponent, an infinity, or none. -/
  | float
  /-- A date, a time of day, or both. -/
  | time
  | array (items : List Value)
  | table (entries : List (String × Value))

/-- An entry of a table, by its name. -/
def entry? (entries : List (String × Value)) (name : String) : Option Value := entries.lookup name

end SealedTx.Toml
