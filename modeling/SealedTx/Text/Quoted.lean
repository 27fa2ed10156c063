import SealedTx.Text.Hidden
import SealedTx.Text.Hex

/-!
# Quoted text

A text between double quotes, as diagnostics show it: quotes and backslashes are escaped, the
common control characters have a letter, and every other hidden character is written by its
number in braces.
-/

namespace SealedTx.Text

/-- The hexadecimal digits of a number, without leading zeros. -/
def hexNumber (n : Nat) : List Char := (Nat.toDigits 16 n)

/-- A character as it stands inside a quoted text. -/
def quoteChar (c : Char) : List Char :=
  match c with
  | '\x00' => ['\\', '0']
  | '\t' => ['\\', 't']
  | '\n' => ['\\', 'n']
  | '\r' => ['\\', 'r']
  | '"' => ['\\', '"']
  | '\\' => ['\\', '\\']
  | c => if isHidden c then ['\\', 'u', '\x7b'] ++ hexNumber c.toNat ++ ['\x7d'] else [c]

/-- The text between double quotes. -/
def quote (s : String) : String :=
  String.ofList ('"' :: s.toList.flatMap quoteChar ++ ['"'])

end SealedTx.Text
