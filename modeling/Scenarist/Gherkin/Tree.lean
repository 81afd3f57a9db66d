import Scenarist.Keyword

/-!
# Feature trees

What the grammar finds in a feature file. Nodes carry the line at which they were found; names and
descriptions are read from the lines themselves.
-/

namespace Scenarist.Gherkin

/-- What a step does. -/
inductive StepType
  | given | when_ | then_
  deriving DecidableEq, Repr

structure Step where
  line : Nat
  keyword : String
  type : StepType
  value : String
  /-- The text between the delimiters of a doc string, without its margin. -/
  docString : Option (List Char)
  table : Option (List (List String))
  deriving DecidableEq, Repr

structure Background where
  line : Nat
  steps : List Step
  deriving DecidableEq, Repr

structure Examples where
  line : Nat
  tags : List String
  table : Option (List (List String))
  deriving DecidableEq, Repr

structure Scenario where
  line : Nat
  tags : List String
  steps : List Step
  examples : List Examples
  deriving DecidableEq, Repr

structure Rule where
  line : Nat
  tags : List String
  background : Option Background
  scenarios : List Scenario
  deriving DecidableEq, Repr

structure Feature where
  line : Nat
  tags : List String
  background : Option Background
  scenarios : List Scenario
  rules : List Rule
  deriving DecidableEq, Repr

end Scenarist.Gherkin
