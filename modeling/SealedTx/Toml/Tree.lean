import SealedTx.Toml.Value

/-!
# Tables in the making

A configuration text defines its tables line by line, and may come back to some of them but not
to others. A tree is a table with what has to be known to tell which.

* A table that a header names is there once and for all: a second header may not name it, nor
  may a dotted key reach into it.
* A table that a header only passes through on its way may still be named by a header.
* A table that a dotted key made takes more dotted keys, but no header may name it.
* A list of tables gets one table more from each header that names it, and what follows goes
  into the last one. The ones before it are finished.

Values are never reached into, inline tables included.
-/

namespace SealedTx.Toml

/-- How a table came about. -/
inductive Origin where
  /-- A header names it, or it is a whole document or inline table. -/
  | named
  /-- A header passes through it. -/
  | passed
  /-- A dotted key passes through it. -/
  | dotted
deriving DecidableEq, Repr

/-- What a name stands for in a table in the making. -/
inductive Node where
  | value (v : Value)
  | table (origin : Origin) (entries : List (String × Node))
  | tables (earlier : List Value) (last : List (String × Node))

/-- The entries of a table in the making. -/
abbrev Entries := List (String × Node)

mutual

/-- What a node is once it is finished. -/
def Node.toValue : Node → Value
  | .value v => v
  | .table _ entries => .table (finish entries)
  | .tables earlier last => .array (earlier ++ [.table (finish last)])

/-- The entries of a table once it is finished. -/
def finish : Entries → List (String × Value)
  | [] => []
  | (name, node) :: rest => (name, node.toValue) :: finish rest

end

/-- Puts a node in the place of the one that has its name. -/
def replace (name : String) (node : Node) (es : Entries) : Entries :=
  es.map fun e => if e.1 = name then (name, node) else e

/-- A change to the entries of a table that came about in some way, if it is allowed. -/
abbrev Change := Origin → Entries → Option Entries

/-- A change to the table at the end of a path. Tables that are missing on the way are made; a
path of a dotted key goes through no table that a header named. -/
def Change.at (made : Origin) (change : Change) : List String → Change
  | [], origin, es => change origin es
  | name :: path, _, es =>
    match es.lookup name with
    | none => do return es ++ [(name, .table made (← Change.at made change path made []))]
    | some (.value _) => none
    | some (.tables earlier last) => do
      return replace name (.tables earlier (← Change.at made change path .named last)) es
    | some (.table origin inner) =>
      if made = .dotted ∧ origin = .named then none
      else do return replace name (.table origin (← Change.at made change path origin inner)) es

/-- A key: the names on the way to a table, and a name in it. -/
structure Key where
  path : List String
  name : String
deriving DecidableEq, Repr

/-- Gives a name a value. A table made by dotted keys takes more of them and no others, and every
other table takes only keys without dots. -/
def assignName (isDotted : Bool) (name : String) (v : Value) : Change := fun origin es =>
  if isDotted ≠ (origin = .dotted : Bool) ∨ (es.lookup name).isSome then none
  else some (es ++ [(name, .value v)])

/-- Gives a key a value. -/
def assign (k : Key) (v : Value) : Change :=
  Change.at .dotted (assignName (k.path ≠ []) k.name v) k.path

/-- Makes a table at a key, for the header that names it. -/
def openTable (k : Key) : Change :=
  Change.at .passed (fun _ es =>
    match es.lookup k.name with
    | none => some (es ++ [(k.name, .table .named [])])
    | some (.table .passed inner) => some (replace k.name (.table .named inner) es)
    | some _ => none) k.path

/-- Adds a table to the list at a key, for the header that names it. -/
def openListed (k : Key) : Change :=
  Change.at .passed (fun _ es =>
    match es.lookup k.name with
    | none => some (es ++ [(k.name, .tables [] [])])
    | some (.tables earlier last) =>
      some (replace k.name (.tables (earlier ++ [.table (finish last)]) []) es)
    | some _ => none) k.path

/-- The entries of an inline table. -/
def inlineTable? (assignments : List (Key × Value)) : Option (List (String × Value)) := do
  let es ← assignments.foldlM (fun es a => assign a.1 a.2 .named es) []
  return finish es

end SealedTx.Toml
