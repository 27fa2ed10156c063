import SealedTx.Text.Hex

/-!
# Names in JSON

Keys and the cases of a choice travel in JSON as strings. A case may also be written as an object
whose only entry has the case's name and is null. This module reads both forms, strictly: one
value, blanks around it, and nothing else.

A reader takes its value from the front of a list of characters and gives it with the rest.
-/

namespace SealedTx.Text.Json

/-- The characters without the blanks before them. -/
def skipBlanks : List Char → List Char
  | ' ' :: rest | '\t' :: rest | '\n' :: rest | '\r' :: rest => skipBlanks rest
  | cs => cs

/-- The value of four hexadecimal digits, and the rest. -/
def hex4? : List Char → Option (Nat × List Char)
  | a :: b :: c :: d :: rest => do
    let a ← hexValue? a
    let b ← hexValue? b
    let c ← hexValue? c
    let d ← hexValue? d
    return (((a * 16 + b) * 16 + c) * 16 + d, rest)
  | _ => none

/-- Whether a code unit is the first of a pair. -/
def isHighSurrogate (n : Nat) : Bool := 0xD800 ≤ n && n ≤ 0xDBFF

/-- Whether a code unit is the second of a pair. -/
def isLowSurrogate (n : Nat) : Bool := 0xDC00 ≤ n && n ≤ 0xDFFF

/-- The character of an escape by number, behind its letter. -/
def unicodeEscape? (cs : List Char) : Option (Char × List Char) := do
  let (n, rest) ← hex4? cs
  if isHighSurrogate n then
    match rest with
    | '\\' :: 'u' :: rest => do
      let (m, rest) ← hex4? rest
      if isLowSurrogate m then
        return (Char.ofNat (0x10000 + (n - 0xD800) * 0x400 + (m - 0xDC00)), rest)
      else none
    | _ => none
  else if isLowSurrogate n then none
  else return (Char.ofNat n, rest)

/-- The character of an escape, behind its backslash. -/
def escape? : List Char → Option (Char × List Char)
  | '"' :: rest => some ('"', rest)
  | '\\' :: rest => some ('\\', rest)
  | '/' :: rest => some ('/', rest)
  | 'b' :: rest => some ('\x08', rest)
  | 'f' :: rest => some ('\x0c', rest)
  | 'n' :: rest => some ('\n', rest)
  | 'r' :: rest => some ('\r', rest)
  | 't' :: rest => some ('\t', rest)
  | 'u' :: rest => unicodeEscape? rest
  | _ => none

/-- The characters of a string behind its first quote, in at most `rounds` rounds. -/
def stringBody? : (rounds : Nat) → List Char → Option (List Char × List Char)
  | 0, _ => none
  | _ + 1, [] => none
  | rounds + 1, c :: rest =>
    if c = '"' then some ([], rest)
    else if c = '\\' then do
      let (e, rest) ← escape? rest
      let (body, rest) ← stringBody? rounds rest
      return (e :: body, rest)
    else if c.toNat < 0x20 then none
    else do
      let (body, rest) ← stringBody? rounds rest
      return (c :: body, rest)

/-- A string, with the blanks before it. -/
def string? (cs : List Char) : Option (String × List Char) :=
  match skipBlanks cs with
  | '"' :: rest => do
    let (body, rest) ← stringBody? (rest.length + 1) rest
    return (String.ofList body, rest)
  | _ => none

/-- The rest behind a null, with the blanks before it. -/
def null? (cs : List Char) : Option (List Char) :=
  match skipBlanks cs with
  | 'n' :: 'u' :: 'l' :: 'l' :: rest => some rest
  | _ => none

/-- The rest behind a character, with the blanks before it. -/
def char? (c : Char) (cs : List Char) : Option (List Char) :=
  match skipBlanks cs with
  | d :: rest => if d = c then some rest else none
  | [] => none

/-- What a text of a single string holds. -/
def readString? (text : String) : Option String := do
  let (s, rest) ← string? text.toList
  if skipBlanks rest = [] then return s else none

/-- An object whose only entry is null, by the name of the entry. -/
def nullCase? (cs : List Char) : Option (String × List Char) := do
  let (s, rest) ← string? (← char? '\x7b' cs)
  let rest ← char? '\x7d' (← null? (← char? ':' rest))
  return (s, rest)

/-- The name of the case that a text holds. -/
def readCase? (text : String) : Option String := do
  let (s, rest) ← (string? text.toList).or (nullCase? text.toList)
  if skipBlanks rest = [] then return s else none

/-- The text of a string without characters that need an escape. -/
def plainString (s : String) : String := "\"" ++ s ++ "\""

end SealedTx.Text.Json
