import Scenarist.Handler.Reply
import Scenarist.Steps.Pattern

/-!
# Step definitions

A definition ties the steps of a keyword that match a pattern to a handler. It may name further
parameters of the handler and choose converters for bound names.
-/

namespace Scenarist

open Text

/-- Where a definition was written. -/
inductive Site
  | line (file : String) (number : Nat)
  /-- The place of the registering call. -/
  | caller
  deriving DecidableEq, Repr

def Site.describe : Site → String
  | line file number => file ++ ":" ++ toString number
  | caller => "caller"

/-- A definition whose handler works on states of type `σ`. -/
structure StepDefinition (σ : Type) where
  keyword : StepKeyword
  pattern : StepPattern
  handler : Handler σ
  /-- Parameters of the handler that the pattern does not bind. -/
  parameters : List String
  converters : List (String × Converter)
  site : Site

namespace StepDefinition

variable {σ : Type}

/-- A definition without further parameters. Conjunctions define no steps. -/
def ofHandler (keyword : StepKeyword) (pattern : StepPattern) (handler : Handler σ) (site : Site) :
    Except RegistrationError (StepDefinition σ) :=
  if keyword.isConjunction then .error (.conjunction keyword)
  else .ok ⟨keyword, pattern, handler, [], [], site⟩

/-- The first converter that the definition itself has for a name. -/
def converter? (d : StepDefinition σ) (name : String) : Option Converter :=
  (d.converters.find? fun c => c.1 = name).map (·.2)

/-- The keyword, the pattern and the place of a definition. -/
def describe (d : StepDefinition σ) : String :=
  d.keyword.name ++ " " ++ quoted d.pattern.describe ++ " (" ++ d.site.describe ++ ")"

/-- All parts of a definition by an exact text, less its handler. -/
def detail (d : StepDefinition σ) : String :=
  let (file, number) : String × Nat := match d.site with
    | .line file number => (file, number)
    | .caller => ("caller", 0)
  "StepDefinition \x7b keyword: " ++ d.keyword.name ++ ", pattern: Exact(" ++
    quoted d.pattern.describe ++ "), parameters: [" ++
    String.intercalate ", " (d.parameters.map quoted) ++ "], file: " ++ quoted file ++
    ", line: " ++ toString number ++ ", .. \x7d"

end StepDefinition

end Scenarist
