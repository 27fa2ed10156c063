import SealedTx.Text.Hex
import SealedTx.Toml.Scanner

/-!
# TOML text

A text stands between quotes of two kinds, single or tripled. Between double quotes a backslash
escapes; between single ones every character stands for itself. Only tripled quotes span lines:
a line end right behind the opening ones is dropped, and a backslash at the end of a line drops
all white space up to the next character.

Up to two quotes right before closing tripled ones belong to the text, hence a run of up to five
ends it.

Writing picks the first form that needs no escapes, in the order double, single, tripled double,
tripled single; if none does, it escapes between double quotes, tripled if the text has lines.
-/

namespace SealedTx.Toml

open SealedTx.Text (hexValue?)

/-! ## Reading -/

/-- The character whose number hexadecimal digits give. -/
def numbered? (digits : List Char) : Option Char := do
  let n ← digits.foldlM (fun n d => return 16 * n + (← hexValue? d)) 0
  if n.isValidChar then return Char.ofNat n else none

/-- The character of an escape, behind its backslash. -/
def escape? : List Char → Option (Char × List Char)
  | 'b' :: rest => some ('\x08', rest)
  | 't' :: rest => some ('\t', rest)
  | 'n' :: rest => some ('\n', rest)
  | 'f' :: rest => some ('\x0c', rest)
  | 'r' :: rest => some ('\r', rest)
  | '"' :: rest => some ('"', rest)
  | '\\' :: rest => some ('\\', rest)
  | 'u' :: a :: b :: c :: d :: rest => return (← numbered? [a, b, c, d], rest)
  | 'U' :: a :: b :: c :: d :: e :: f :: g :: h :: rest =>
    return (← numbered? [a, b, c, d, e, f, g, h], rest)
  | _ => none

/-- A character before the rest of a text. -/
def before (c : Char) (r : List Char × List Char) : List Char × List Char := (c :: r.1, r.2)

/-- The text up to a closing double quote, in at most `rounds` rounds. -/
def basicBody? : (rounds : Nat) → List Char → Option (List Char × List Char)
  | 0, _ => none
  | _ + 1, [] => none
  | rounds + 1, c :: rest =>
    if c = '"' then some ([], rest)
    else if c = '\\' then do
      let (e, rest) ← escape? rest
      return before e (← basicBody? rounds rest)
    else if isPlain c then do return before c (← basicBody? rounds rest)
    else none

/-- The text up to a closing single quote. -/
def literalBody? : List Char → Option (List Char × List Char)
  | [] => none
  | c :: rest =>
    if c = '\'' then some ([], rest)
    else if isPlain c then do return before c (← literalBody? rest)
    else none

/-- What tripled quotes that close a text leave: the quotes that belong to the text, and the
rest. -/
def closing? (quote : Char) : List Char → Option (List Char × List Char)
  | a :: b :: c :: rest =>
    if a = quote ∧ b = quote ∧ c = quote then
      let (more, rest) := rest.span (· = quote)
      some (more.take 2, more.drop 2 ++ rest)
    else none
  | _ => none

/-- The rest behind a backslash that ends its line, and behind the white space that follows. -/
def lineJoin? (cs : List Char) : Option (List Char) :=
  (newline? (skipBlanks cs)).map skipWhite

/-- The text up to closing tripled double quotes, in at most `rounds` rounds. -/
def longBasicBody? : (rounds : Nat) → List Char → Option (List Char × List Char)
  | 0, _ => none
  | rounds + 1, cs =>
    match closing? '"' cs, newline? cs, cs with
    | some found, _, _ => some found
    | none, some rest, _ => do return before '\n' (← longBasicBody? rounds rest)
    | none, none, [] => none
    | none, none, c :: rest =>
      if c = '\\' then
        match lineJoin? rest with
        | some rest => longBasicBody? rounds rest
        | none => do
          let (e, rest) ← escape? rest
          return before e (← longBasicBody? rounds rest)
      else if isPlain c then do return before c (← longBasicBody? rounds rest)
      else none

/-- The text up to closing tripled single quotes, in at most `rounds` rounds. -/
def longLiteralBody? : (rounds : Nat) → List Char → Option (List Char × List Char)
  | 0, _ => none
  | rounds + 1, cs =>
    match closing? '\'' cs, newline? cs, cs with
    | some found, _, _ => some found
    | none, some rest, _ => do return before '\n' (← longLiteralBody? rounds rest)
    | none, none, [] => none
    | none, none, c :: rest =>
      if isPlain c then do return before c (← longLiteralBody? rounds rest) else none

/-- The rest without a line end at its front. -/
def dropNewline (cs : List Char) : List Char := (newline? cs).getD cs

/-- A text between single or double quotes that are not tripled. -/
def shortText? : List Char → Option (List Char × List Char)
  | '"' :: rest => basicBody? (rest.length + 1) rest
  | '\'' :: rest => literalBody? rest
  | _ => none

/-- A text between quotes of any kind. -/
def quoted? : List Char → Option (List Char × List Char)
  | '"' :: '"' :: '"' :: rest => longBasicBody? (rest.length + 1) (dropNewline rest)
  | '\'' :: '\'' :: '\'' :: rest => longLiteralBody? (rest.length + 1) (dropNewline rest)
  | cs => shortText? cs

/-- Takes a text between quotes of any kind. -/
def quotedText : Scanner String := fun cs => (quoted? cs).map fun r => (String.ofList r.1, r.2)

/-- Takes a text between quotes that are not tripled. -/
def shortText : Scanner String := fun cs => (shortText? cs).map fun r => (String.ofList r.1, r.2)

/-! ## Writing -/

/-- The length of the longest run of a character. -/
def longestRun (c : Char) (cs : List Char) : Nat :=
  (cs.foldl (fun (best, now) d =>
    let now := if d = c then now + 1 else 0
    (max best now, now)) (0, 0)).1

/-- Whether a character stands in a text only as an escape. -/
def needsEscape (c : Char) : Bool := c ≠ '\n' && !isPlain c

/-- How the quotes of a written text look. -/
inductive Quotes where
  | basic
  | literal
  | longBasic
  | longLiteral
deriving DecidableEq, Repr

/-- The quotes for a text. -/
def quotesFor (cs : List Char) : Quotes :=
  let lines := cs.contains '\n'
  let controls := cs.any needsEscape
  let backslashes := cs.contains '\\'
  let doubles := longestRun '"' cs
  let singles := longestRun '\'' cs
  if !controls && !backslashes && doubles = 0 && !lines then .basic
  else if !controls && singles = 0 && !lines then .literal
  else if !controls && !backslashes && doubles ≤ 2 then .longBasic
  else if !controls && singles ≤ 2 then .longLiteral
  else if lines then .longBasic
  else .basic

/-- A capital hexadecimal digit. -/
def capitalHexDigit (n : Nat) : Char := (Text.hexDigit n).toUpper

/-- The escape of a control character by its number. -/
def numberedEscape (c : Char) : List Char :=
  ['\\', 'u', '0', '0', capitalHexDigit (c.toNat / 16), capitalHexDigit (c.toNat % 16)]

/-- A character between double quotes, those aside. -/
def escaped (isLong : Bool) (c : Char) : List Char :=
  match c with
  | '\x08' => ['\\', 'b']
  | '\t' => ['\\', 't']
  | '\n' => if isLong then ['\n'] else ['\\', 'n']
  | '\x0c' => ['\\', 'f']
  | '\r' => ['\\', 'r']
  | '\\' => ['\\', '\\']
  | c => if isPlain c then [c] else numberedEscape c

/-- The text between double quotes; of the quotes in it, `allowed` in a row stand as they are,
`row` of which were just written. -/
def escapeAll (isLong : Bool) (allowed : Nat) : (row : Nat) → List Char → List Char
  | _, [] => []
  | row, c :: rest =>
    if c = '"' then
      if row < allowed then '"' :: escapeAll isLong allowed (row + 1) rest
      else '\\' :: '"' :: escapeAll isLong allowed 0 rest
    else escaped isLong c ++ escapeAll isLong allowed 0 rest

/-- The text between its quotes. -/
def quote (s : String) : String :=
  let cs := s.toList
  let opening := if cs.contains '\n' then ['\n'] else []
  String.ofList <|
    match quotesFor cs with
    | .basic => ['"'] ++ escapeAll false 0 0 cs ++ ['"']
    | .literal => ['\''] ++ cs ++ ['\'']
    | .longBasic => ['"', '"', '"'] ++ opening ++ escapeAll true 2 0 cs ++ ['"', '"', '"']
    | .longLiteral => ['\'', '\'', '\''] ++ opening ++ cs ++ ['\'', '\'', '\'']

end SealedTx.Toml
