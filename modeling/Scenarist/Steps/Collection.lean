import Scenarist.Steps.Registry

/-!
# Collecting step definitions

A collection grows by single definitions and by submissions. Submissions are added one by one in the
order of the places where they were written; the first that cannot be registered ends this, and those
before it stay.
-/

namespace Scenarist

/-- A definition that was submitted without a collection. -/
structure Submission (σ : Type) where
  keyword : StepKeyword
  /-- A pattern with fields. -/
  pattern : String
  handler : Handler σ
  parameters : List String
  file : String
  line : Nat

variable {σ : Type}

namespace Submission

/-- Whether a submission comes before another one, or at the same place. -/
def precedes (a b : Submission σ) : Bool :=
  a.file < b.file || (a.file == b.file && a.line ≤ b.line)

/-- Submissions by file and line; those at one place keep their order. -/
def sorted (submissions : List (Submission σ)) : List (Submission σ) :=
  submissions.mergeSort precedes

/-- The definition that a submission stands for. -/
def definition (s : Submission σ) : Except RegistrationError (StepDefinition σ) := do
  let pattern ← StepPattern.ofFormat s.pattern
  let d ← StepDefinition.ofHandler s.keyword pattern s.handler (.line s.file s.line)
  return { d with parameters := s.parameters }

end Submission

/-- Definitions in the order in which they were collected. -/
structure StepCollection (σ : Type) where
  definitions : List (StepDefinition σ)

namespace StepCollection

def empty : StepCollection σ := ⟨[]⟩

def size (c : StepCollection σ) : Nat := c.definitions.length

def isEmpty (c : StepCollection σ) : Bool := c.definitions.isEmpty

/-- Adds a definition. -/
def add (d : StepDefinition σ) (c : StepCollection σ) : StepCollection σ :=
  ⟨c.definitions ++ [d]⟩

/-- Registers a handler for the steps of a keyword that match a pattern. -/
def register (keyword : StepKeyword) (pattern : StepPattern) (handler : Handler σ)
    (c : StepCollection σ) : Except RegistrationError Unit × StepCollection σ :=
  match StepDefinition.ofHandler keyword pattern handler .caller with
  | .error e => (.error e, c)
  | .ok d => (.ok (), c.add d)

/-- Adds submissions in the given order. -/
def addAll : List (Submission σ) → StepCollection σ →
    Except RegistrationError Unit × StepCollection σ
  | [], c => (.ok (), c)
  | s :: rest, c =>
    match s.definition with
    | .error e => (.error e, c)
    | .ok d => addAll rest (c.add d)

/-- Adds submissions in the order of their places. -/
def addSubmitted (submissions : List (Submission σ)) (c : StepCollection σ) :
    Except RegistrationError Unit × StepCollection σ :=
  addAll (Submission.sorted submissions) c

/-- The registry of the collected definitions. -/
def build (c : StepCollection σ) : StepRegistry σ := ⟨c.definitions⟩

end StepCollection

end Scenarist
