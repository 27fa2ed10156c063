import SealedTx.Config
import SealedTx.Toml.Text

/-!
# Writing configurations

A configuration is written as TOML, section by section with an empty line between them. Settings
that are not there are left out. The sources of keys stand behind the other settings for keys,
each in a section of its own.
-/

namespace SealedTx.Config

open Toml (quote)

/-- A setting. -/
def setting (name value : String) : String := s!"{name} = {value}\n"

/-- A setting that may be left out. -/
def optionalSetting (name : String) (value : Option String) : String :=
  (value.map (setting name)).getD ""

/-- An array of texts: one text or none on one line, more on a line each. -/
def textArray : List String → String
  | [] => "[]"
  | [s] => s!"[{quote s}]"
  | ss => "[\n" ++ String.join (ss.map fun s => s!"    {quote s},\n") ++ "]"

/-- The settings of a source of keys. -/
def sourceSettings : KeySource → String
  | .inline publicKey privateKey =>
    setting "type" (quote "inline") ++ setting "public_key" (quote publicKey) ++
      setting "private_key" (quote privateKey)
  | .azure publicId privateId publicVersion privateVersion =>
    setting "type" (quote "azure") ++ setting "public_key_id" (quote publicId) ++
      setting "private_key_id" (quote privateId) ++
      optionalSetting "public_key_version" (publicVersion.map quote) ++
      optionalSetting "private_key_version" (privateVersion.map quote)
  | .hashicorp engine secret publicId privateId version =>
    setting "type" (quote "hashicorp") ++ setting "secret_engine_name" (quote engine) ++
      setting "secret_name" (quote secret) ++ setting "public_key_id" (quote publicId) ++
      setting "private_key_id" (quote privateId) ++
      optionalSetting "secret_version" (version.map fun v => toString v.toNat)
  | .aws publicId privateId =>
    setting "type" (quote "aws") ++ setting "public_key_id" (quote publicId) ++
      setting "private_key_id" (quote privateId)

/-- The settings for keys, the sources aside unless there are none. -/
def keySettings (c : Config) : String :=
  (if c.sources = [] then setting "key_data" "[]" else "") ++
    setting "forwarding_keys" (textArray c.forwarding)

/-- The sections of a configuration. -/
def sections (c : Config) : List String :=
  ["[keys]\n" ++ c.keySettings] ++
    c.sources.map (fun s => "[[keys.key_data]]\n" ++ sourceSettings s) ++
    ["[encoder]\n" ++ setting "codec" (quote c.codec.name),
      "[digest]\n" ++ setting "algorithm" (quote c.digest.name),
      "[logging]\n" ++ setting "level" (quote c.level)]

/-- The text of a configuration. -/
def toToml (c : Config) : String := "\n".intercalate c.sections

end SealedTx.Config
