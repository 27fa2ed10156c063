import SealedTx.Config
import SealedTx.Toml.Document

/-!
# Reading configurations

A configuration is written as TOML. Its settings stand in sections, which may be left out;
settings that are not known do not matter. A section may also be an array, which gives its
settings in order.

A setting with a wrong type makes the whole text unreadable. Whether the settings make sense is
checked after they were read.
-/

namespace SealedTx.Config

open Toml (Value entry?)

/-! ## Settings -/

/-- The settings of a section by name. An array gives them in order; a date has none. -/
def settings? (names : List String) : Value → Option (List (String × Value))
  | .table entries => some entries
  | .array items => some (names.zip items)
  | .time => some []
  | _ => none

/-- The settings of a section that may be left out. -/
def section? (entries : List (String × Value)) (name : String) (names : List String) :
    Option (List (String × Value)) :=
  match entry? entries name with
  | some v => settings? names v
  | none => some []

/-- A setting that may be left out. -/
def optional? {α : Type} (entries : List (String × Value)) (name : String)
    (read : Value → Option α) : Option (Option α) :=
  match entry? entries name with
  | some v => (read v).map some
  | none => some none

/-- A setting that has to be there. -/
def required? {α : Type} (entries : List (String × Value)) (name : String)
    (read : Value → Option α) : Option α := do read (← entry? entries name)

/-- A text. -/
def text? : Value → Option String
  | .text s => some s
  | _ => none

/-- A list of values of one type. -/
def list? {α : Type} (read : Value → Option α) : Value → Option (List α)
  | .array items => items.mapM read
  | _ => none

/-- The version of a secret. -/
def version? : Value → Option UInt32
  | .integer n => if 0 ≤ n ∧ n < 0x100000000 then some (UInt32.ofNat n.toNat) else none
  | _ => none

/-- One name of several. It may stand as a text, or as the only name in a table, where it has
nothing to it. -/
def choice? {α : Type} (ofName? : String → Option α) : Value → Option α
  | .text s => ofName? s
  | .table [(s, .table [])] => ofName? s
  | .table [(s, .array [])] => ofName? s
  | _ => none

/-! ## Sources of keys -/

/-- The names of a source's settings, in order, for each type. -/
def sourceNames? : String → Option (List String)
  | "inline" => some ["public_key", "private_key"]
  | "azure" =>
    some ["public_key_id", "private_key_id", "public_key_version", "private_key_version"]
  | "hashicorp" =>
    some ["secret_engine_name", "secret_name", "public_key_id", "private_key_id", "secret_version"]
  | "aws" => some ["public_key_id", "private_key_id"]
  | _ => none

/-- The source of a type with settings. -/
def sourceOf? (type : String) (entries : List (String × Value)) : Option KeySource := do
  let text (name : String) := required? entries name text?
  let version (name : String) := optional? entries name text?
  match type with
  | "inline" => return .inline (← text "public_key") (← text "private_key")
  | "azure" =>
    return .azure (← text "public_key_id") (← text "private_key_id")
      (← version "public_key_version") (← version "private_key_version")
  | "hashicorp" =>
    return .hashicorp (← text "secret_engine_name") (← text "secret_name")
      (← text "public_key_id") (← text "private_key_id")
      (← optional? entries "secret_version" version?)
  | "aws" => return .aws (← text "public_key_id") (← text "private_key_id")
  | _ => none

/-- A source of keys: a table with its type among the settings, or an array that begins with the
type and holds no more than the settings. -/
def source? : Value → Option KeySource
  | .table entries => do sourceOf? (← required? entries "type" text?) entries
  | .array (.text type :: items) => do
    let names ← sourceNames? type
    if items.length ≤ names.length then sourceOf? type (names.zip items) else none
  | _ => none

/-! ## Configurations -/

/-- The configuration that the entries of a text make. -/
def ofEntries? (entries : List (String × Value)) : Option Config := do
  let default : Config := {}
  let keys ← section? entries "keys" ["key_data", "forwarding_keys"]
  let encoder ← section? entries "encoder" ["codec"]
  let digest ← section? entries "digest" ["algorithm"]
  let logging ← section? entries "logging" ["level"]
  return {
    sources := (← optional? keys "key_data" (list? source?)).getD default.sources
    forwarding := (← optional? keys "forwarding_keys" (list? text?)).getD default.forwarding
    codec := (← optional? encoder "codec" (choice? Codec.ofName?)).getD default.codec
    digest := (← optional? digest "algorithm" (choice? Digest.ofName?)).getD default.digest
    level := (← optional? logging "level" text?).getD default.level }

/-- Why a text that is no configuration cannot be read. -/
def unreadable : String := "TOML parse error"

/-- Reads a configuration from a text that came from `path`, without checking it. -/
def read (path text : String) : Except NodeError Config :=
  match (Toml.parse? text).bind ofEntries? with
  | some c => .ok c
  | none => .error (.configLoad path unreadable)

/-- Reads and checks a configuration from a text that came from `path`. -/
def load (path text : String) : Except NodeError Config := do
  let c ← read path text
  c.check
  return c

end SealedTx.Config
