/-!
# Scanning characters

A scanner takes something from the front of a list of characters, or fails. A line may end in a
comment; blank characters here are spaces and tabs alone, and a line ends in a line feed with or
without a carriage return before it. Control characters stand nowhere but there.
-/

namespace SealedTx.Toml

/-- Takes something from the front of a list of characters, or fails. -/
abbrev Scanner := StateT (List Char) Option

/-- Takes a given character. -/
def exactly (c : Char) : Scanner Unit := fun cs =>
  match cs with
  | d :: rest => if d = c then some ((), rest) else none
  | [] => none

/-- Takes a given character if it comes next, and tells whether it did. -/
def accept (c : Char) : Scanner Bool := fun cs =>
  match cs with
  | d :: rest => if d = c then some (true, rest) else some (false, cs)
  | [] => some (false, [])

/-- Takes the longest run of characters of a class. -/
def run (isMember : Char → Bool) : Scanner (List Char) := fun cs => some (cs.span isMember)

/-- Whether a blank character stands within a line. -/
def isBlank (c : Char) : Bool := c = ' ' || c = '\t'

/-- Whether a character may stand within a line: a tab, or any that is no control character. -/
def isPlain (c : Char) : Bool := c = '\t' || (0x20 ≤ c.toNat && c.toNat ≠ 0x7F)

/-- The rest behind a line end, if one comes first. -/
def newline? : List Char → Option (List Char)
  | '\n' :: rest => some rest
  | '\r' :: '\n' :: rest => some rest
  | _ => none

/-- The rest behind blank characters. -/
def skipBlanks (cs : List Char) : List Char := cs.dropWhile isBlank

/-- The rest behind a comment, if one comes first. -/
def skipComment : List Char → List Char
  | '#' :: rest => rest.dropWhile isPlain
  | cs => cs

/-- The rest behind the end of a line: blank characters, a comment, and a line end unless the
text is over. -/
def endLine? (cs : List Char) : Option (List Char) :=
  match skipComment (skipBlanks cs) with
  | [] => some []
  | rest => newline? rest

/-- The rest behind blank characters and line ends. -/
def skipWhite : List Char → List Char
  | ' ' :: rest | '\t' :: rest | '\n' :: rest => skipWhite rest
  | '\r' :: '\n' :: rest => skipWhite rest
  | cs => cs

/-- The rest behind blank characters, line ends and comments; `inComment` tells whether a comment
has begun. A comment that holds a control character has no rest. -/
def skipLayout (inComment : Bool) : List Char → Option (List Char)
  | [] => some []
  | '\r' :: '\n' :: rest => skipLayout false rest
  | c :: rest =>
    if c = '\n' then skipLayout false rest
    else if inComment then if isPlain c then skipLayout true rest else none
    else if isBlank c then skipLayout false rest
    else if c = '#' then skipLayout true rest
    else some (c :: rest)

/-- Takes blank characters. -/
def blanks : Scanner Unit := modify skipBlanks

/-- Takes blank characters, line ends and comments. -/
def layout : Scanner Unit := fun cs => (skipLayout false cs).map ((), ·)

/-- Takes the end of a line. -/
def endLine : Scanner Unit := fun cs => (endLine? cs).map ((), ·)

end SealedTx.Toml
