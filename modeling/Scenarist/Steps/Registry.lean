import Scenarist.Document.Basic
import Scenarist.Steps.Definition

/-!
# Finding the definition of a step

A registry holds definitions in the order of their registration. The text of a step has to match
exactly one definition of its keyword; then every binding is converted, by the converter that the
definition has for its name or else by the one that the pattern chose.
-/

namespace Scenarist

open Text

/-- Why no single definition can be called for a step. -/
inductive LookupError
  | notFound (keyword : StepKeyword) (text : String) (location : Option Location)
  | ambiguous (keyword : StepKeyword) (text : String) (location : Option Location)
      (candidates : List String)
  | conversion (argument value definition cause : String)
  deriving DecidableEq, Repr

/-- The words that add a place to a message. -/
def placeWords : Option Location → String
  | some l => s!" at line {l.line}, column {l.column}"
  | none => ""

def LookupError.message : LookupError → String
  | notFound keyword text location =>
    "no step definition matches `" ++ keyword.name ++ " " ++ text ++ "`" ++ placeWords location
  | ambiguous keyword text location candidates =>
    "step `" ++ keyword.name ++ " " ++ text ++ "`" ++ placeWords location ++ " matches " ++
      toString candidates.length ++ " definitions: " ++ String.intercalate "; " candidates
  | conversion argument value definition cause =>
    "cannot convert argument `" ++ argument ++ "` value " ++ quoted value ++ " for " ++
      definition ++ ": " ++ cause

/-- Definitions in the order of their registration. -/
structure StepRegistry (σ : Type) where
  definitions : List (StepDefinition σ)

/-- The definition of a step, and the values that the pattern binds, in its order. -/
structure ResolvedStep (σ : Type) where
  definition : StepDefinition σ
  arguments : List (String × Value)

variable {σ : Type}

/-- Converts a binding for a definition. -/
def StepDefinition.convert (d : StepDefinition σ) (b : Binding) :
    Except LookupError (String × Value) :=
  match d.converter? b.name <|> b.converter with
  | none => .ok (b.name, .text b.raw)
  | some c =>
    match c b.raw with
    | .ok v => .ok (b.name, v)
    | .error cause => .error (.conversion b.name b.raw d.describe cause)

namespace StepRegistry

/-- The definitions of a keyword that match a text, with the bindings of each. -/
def candidates (r : StepRegistry σ) (keyword : StepKeyword) (text : String) :
    List (StepDefinition σ × List Binding) :=
  (r.definitions.filter fun d => d.keyword = keyword).filterMap fun d =>
    (d.pattern.attempt text).map fun bindings => (d, bindings)

/-- Finds the definition for a text at a place. -/
def resolveAt (r : StepRegistry σ) (keyword : StepKeyword) (text : String)
    (location : Option Location) : Except LookupError (ResolvedStep σ) :=
  match r.candidates keyword text with
  | [] => .error (.notFound keyword text location)
  | [(d, bindings)] => (bindings.mapM d.convert).map fun arguments => ⟨d, arguments⟩
  | many => .error (.ambiguous keyword text location (many.map fun m => m.1.describe))

/-- Finds the definition for a text. -/
def resolve (r : StepRegistry σ) (keyword : StepKeyword) (text : String) :
    Except LookupError (ResolvedStep σ) :=
  r.resolveAt keyword text none

/-- Finds the definition for a step of a document. -/
def resolveStep (r : StepRegistry σ) (keyword : StepKeyword) (step : Step) :
    Except LookupError (ResolvedStep σ) :=
  r.resolveAt keyword step.text (some step.location)

end StepRegistry

end Scenarist
