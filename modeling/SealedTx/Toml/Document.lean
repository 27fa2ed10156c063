import SealedTx.Toml.Text
import SealedTx.Toml.Tree
import SealedTx.Toml.Word

/-!
# Configuration texts

A text is read in two steps: first its lines, each of which assigns a value, opens a table or
does nothing, then the tree that the lines make.

Arrays may span lines and end in a comma, inline tables may not. Both nest to a limit, and so do
the names of a dotted key.
-/

namespace SealedTx.Toml

/-! ## Keys -/

/-- The most names in a key. -/
def nameLimit : Nat := 79

/-- Whether a character may stand in a name without quotes. -/
def isNameChar (c : Char) : Bool := c.isAlphanum || c = '-' || c = '_'

/-- Takes a name, with the blank characters around it. -/
def name : Scanner String := do
  blanks
  let cs ← get
  let s ← match cs with
    | '"' :: _ | '\'' :: _ => shortText
    | _ => do
      let word ← run isNameChar
      if word = [] then failure
      pure (String.ofList word)
  blanks
  return s

/-- Takes the names of a key, dots between them, in at most `rounds` rounds. -/
def names : (rounds : Nat) → Scanner (List String)
  | 0 => failure
  | rounds + 1 => do
    let s ← name
    if ← accept '.' then return s :: (← names rounds)
    return [s]

/-- Takes a key. -/
def key : Scanner Key := do
  let ns ← names nameLimit
  match ns.getLast? with
  | some last => return ⟨ns.dropLast, last⟩
  | none => failure

/-! ## Values -/

/-- Takes the items of an array up to its end, in at most `rounds` rounds. -/
def arrayItems (value : Scanner Value) : (rounds : Nat) → Scanner (List Value)
  | 0 => failure
  | rounds + 1 => do
    layout
    if ← accept ']' then return []
    let v ← value
    layout
    if ← accept ',' then return v :: (← arrayItems value rounds)
    exactly ']'
    return [v]

/-- Takes a key and its value. -/
def assignment (value : Scanner Value) : Scanner (Key × Value) := do
  let k ← key
  exactly '='
  blanks
  return (k, ← value)

/-- Takes the assignments of an inline table up to its end, in at most `rounds` rounds. -/
def inlineItems (value : Scanner Value) : (rounds : Nat) → Scanner (List (Key × Value))
  | 0 => failure
  | rounds + 1 => do
    let a ← assignment value
    blanks
    if ← accept ',' then return a :: (← inlineItems value rounds)
    exactly '\x7d'
    return [a]

/-- Takes an array behind its bracket. -/
def array (value : Scanner Value) : Scanner Value := do
  return .array (← arrayItems value ((← get).length + 1))

/-- Takes an inline table behind its brace. -/
def inlineTable (value : Scanner Value) : Scanner Value := do
  blanks
  if ← accept '\x7d' then return .table []
  let assignments ← inlineItems value ((← get).length + 1)
  match inlineTable? assignments with
  | some entries => return .table entries
  | none => failure

/-- Takes a value with at most `depth` levels of arrays and inline tables. -/
def value : (depth : Nat) → Scanner Value
  | 0 => do
    match ← get with
    | '"' :: _ | '\'' :: _ => .text <$> quotedText
    | _ => bareValue
  | depth + 1 => do
    if ← accept '[' then array (value depth)
    else if ← accept '\x7b' then inlineTable (value depth)
    else
      match ← get with
      | '"' :: _ | '\'' :: _ => .text <$> quotedText
      | _ => bareValue

/-- The most levels of arrays and inline tables. -/
def depthLimit : Nat := 79

/-! ## Lines -/

/-- What a line does. -/
inductive Line where
  /-- It gives a key of the open table a value. -/
  | assign (k : Key) (v : Value)
  /-- It opens a table. -/
  | openTable (k : Key)
  /-- It opens a new table of a list. -/
  | openListed (k : Key)

/-- Takes a line that is not blank. -/
def line : Scanner Line := do
  if ← accept '[' then
    if ← accept '[' then
      let k ← key
      exactly ']'
      exactly ']'
      return .openListed k
    else
      let k ← key
      exactly ']'
      return .openTable k
  else
    let a ← assignment (value depthLimit)
    return .assign a.1 a.2

/-- Takes all lines, in at most `rounds` rounds. -/
def lines : (rounds : Nat) → Scanner (List Line)
  | 0 => failure
  | rounds + 1 => do
    blanks
    match ← get with
    | [] => return []
    | c :: _ =>
      if c = '#' ∨ c = '\n' ∨ c = '\r' then
        endLine
        lines rounds
      else
        let l ← line
        endLine
        return l :: (← lines rounds)

/-! ## Documents -/

/-- A document in the making, and the key of the table that is open, if a header opened one. -/
structure Draft where
  root : Entries := []
  opened : List String := []

/-- What a line makes of a document. -/
def Draft.apply (d : Draft) : Line → Option Draft
  | .assign k v => do
    return { d with root := ← Change.at .passed (assign k v) d.opened .named d.root }
  | .openTable k => do
    return ⟨← Toml.openTable k .named d.root, k.path ++ [k.name]⟩
  | .openListed k => do
    return ⟨← Toml.openListed k .named d.root, k.path ++ [k.name]⟩

/-- The characters of a text without the mark that may begin it. -/
def dropMark : List Char → List Char
  | '\ufeff' :: rest => rest
  | cs => cs

/-- The entries of a configuration text, if it is one. -/
def parse? (text : String) : Option (List (String × Value)) := do
  let cs := dropMark text.toList
  let (ls, _) ← (lines (cs.length + 1)).run cs
  let d ← ls.foldlM Draft.apply {}
  return finish d.root

end SealedTx.Toml
