import Scenarist.Text.Blank
import Scenarist.Text.Encoding
import Scenarist.Text.Quoted

/-!
# Parser configuration

The encoding of feature files and the language that they are written in. Either may be set by a
variable of the environment.
-/

namespace Scenarist

open Text

/-- How feature files are read. -/
structure ParserConfig where
  encoding : Encoding := .utf8
  language : String := "en"
  deriving DecidableEq, Repr

/-- A variable with a value that cannot be used. -/
inductive ConfigFault
  | encoding (value : String)
  | language (value : String)
  deriving DecidableEq, Repr

def encodingVariable : String := "FEATUREFLOW_ENCODING"

def languageVariable : String := "FEATUREFLOW_LANGUAGE"

def ConfigFault.message : ConfigFault → String
  | encoding value =>
    "invalid value " ++ quoted value ++ " for " ++ encodingVariable ++
      ": expected utf-8, utf-8-sig or latin-1"
  | language value =>
    "invalid value " ++ quoted value ++ " for " ++ languageVariable ++
      ": expected a dialect code such as `en` or `pt-BR`"

/-- The encoding of a name, in any case, between blanks, with `_` for `-`. -/
def Text.Encoding.ofName (value : String) : Except ConfigFault Encoding :=
  let normal := (trim value.toList).map fun c => if c = '_' then '-' else c.toLower
  match String.ofList normal with
  | "utf-8" | "utf8" => .ok .utf8
  | "utf-8-sig" | "utf8-sig" => .ok .utf8Sig
  | "latin-1" | "latin1" | "iso-8859-1" => .ok .latin1
  | _ => .error (.encoding value)

/-- The language code in a text, without the blanks around it. -/
def readLanguage (value : String) : Except ConfigFault String :=
  let code := trim value.toList
  if !code.isEmpty && code.all fun c => c.isAlphanum || c == '-' || c == '_' then
    .ok (String.ofList code)
  else .error (.language value)

namespace ParserConfig

/-- The configuration that variables ask for. -/
def ofLookup (lookup : String → Option String) : Except ConfigFault ParserConfig := do
  let encoding ← match lookup encodingVariable with
    | some value => Encoding.ofName value
    | none => .ok .utf8
  let language ← match lookup languageVariable with
    | some value => readLanguage value
    | none => .ok "en"
  return ⟨encoding, language⟩

/-- The name of an encoding in the description of a configuration. -/
def encodingName : Encoding → String
  | .utf8 => "Utf8"
  | .utf8Sig => "Utf8Sig"
  | .latin1 => "Latin1"

/-- The description of a parser with a configuration. -/
def describe (c : ParserConfig) : String :=
  "FeatureParser \x7b config: ParserConfig \x7b encoding: " ++ encodingName c.encoding ++
    ", language: " ++ quoted c.language ++ " \x7d, .. \x7d"

end ParserConfig

end Scenarist
