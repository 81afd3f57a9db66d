import Scenarist.Document.Table
import Scenarist.Run.Fixtures
import Scenarist.Steps.Registry

/-!
# Preparing a step

Before its handler can be called a step needs its keyword, its definition and a value for every
parameter: the one that the pattern binds, or else, for the reserved names, a view of the step's own
table or doc string, or else the fixture of that name.
-/

namespace Scenarist

/-- The keyword that a step is written with, as far as it is known. -/
def Step.writtenKeyword (s : Step) : StepKeyword :=
  match s.keywordType with
  | .context => .given
  | .action => .when_
  | .outcome => .then_
  | .conjunction => .and
  | .unknown => (StepKeyword.read s.keyword.toList).toOption.getD .and

/-- The steps of a block with the keywords that they run under. -/
def withKeywords : Option StepKeyword → List Step → List (Step × StepKeyword)
  | _, [] => []
  | previous, s :: rest =>
    let (keyword, previous) := s.writtenKeyword.resolve previous
    (s, keyword) :: withKeywords previous rest

/-- What a step may carry beside its text. -/
inductive StepAttachment
  | dataTable | docString
  deriving DecidableEq, Repr

def StepAttachment.name : StepAttachment → String
  | dataTable => "data table"
  | docString => "doc string"

/-- Why a step is not done. -/
inductive ExecutionError
  | lookup (error : LookupError)
  | missingFixture (name definition : String)
  | missingBlock (name : String) (block : StepAttachment)
  | tableShape (fault : TableShapeFault)
  /-- The handler was called and reported an error. -/
  | handler (error : StepError)
  deriving DecidableEq, Repr

namespace ExecutionError

def message : ExecutionError → String
  | lookup error => error.message
  | missingFixture name definition => "no fixture named `" ++ name ++ "` for " ++ definition
  | missingBlock name block => "step has no " ++ block.name ++ " for parameter `" ++ name ++ "`"
  | tableShape fault => fault.message
  | handler error => error.message

/-- Whether the handler was called. -/
def isHandlerFailure : ExecutionError → Bool
  | handler _ => true
  | _ => false

end ExecutionError

/-- The parameters that a step itself provides. -/
inductive ReservedParameter
  | rows | transposedRows | columns | docString
  deriving DecidableEq, Repr

namespace ReservedParameter

def name : ReservedParameter → String
  | rows => "datatable"
  | transposedRows => "datatable_transposed"
  | columns => "datatable_columns"
  | docString => "docstring"

def all : List ReservedParameter := [rows, transposedRows, columns, docString]

/-- The reserved parameter of a name. -/
def ofName? (name : String) : Option ReservedParameter := all.find? fun p => p.name = name

/-- The block of a step that a parameter shows. -/
def block : ReservedParameter → StepAttachment
  | docString => .docString
  | _ => .dataTable

/-- The view of a table that a parameter shows. -/
def ofTable (p : ReservedParameter) (t : DataTable) : Except ExecutionError Value :=
  match p with
  | transposedRows => .ok (.rows t.transpose.values)
  | columns => (t.columns.map .columns).mapError .tableShape
  | _ => .ok (.rows t.values)

/-- The value that a step provides. -/
def ofStep (p : ReservedParameter) (s : Step) : Except ExecutionError Value :=
  match p.block, s.dataTable, s.docString with
  | .dataTable, some t, _ => p.ofTable t
  | .docString, _, some d => .ok (.text d.content)
  | block, _, _ => .error (.missingBlock p.name block)

end ReservedParameter

variable {σ : Type}

namespace StepDefinition

/-- The value of a parameter that the pattern does not bind. -/
def supply (d : StepDefinition σ) (s : Step) (fixtures : FixtureResolver) (name : String) :
    Except ExecutionError Value :=
  match ReservedParameter.ofName? name with
  | some p => p.ofStep s
  | none =>
    match fixtures name with
    | some v => .ok v
    | none => .error (.missingFixture name d.describe)

/-- Adds the value of a parameter, if it has none yet. -/
def fill (d : StepDefinition σ) (s : Step) (fixtures : FixtureResolver) (a : StepArguments)
    (name : String) : Except ExecutionError StepArguments :=
  if a.contains name then .ok a
  else (d.supply s fixtures name).map fun v => a.insert name v

end StepDefinition

/-- All arguments of a step: what the pattern binds, then the parameters in order. -/
def ResolvedStep.assemble (r : ResolvedStep σ) (s : Step) (fixtures : FixtureResolver) :
    Except ExecutionError StepArguments :=
  r.definition.parameters.foldlM (r.definition.fill s fixtures) (.ofList r.arguments)

/-- The definition and the arguments of a step. -/
def StepRegistry.prepare (r : StepRegistry σ) (s : Step) (keyword : StepKeyword)
    (fixtures : FixtureResolver) : Except ExecutionError (StepDefinition σ × StepArguments) := do
  let resolved ← (r.resolveStep keyword s).mapError .lookup
  return (resolved.definition, ← resolved.assemble s fixtures)

end Scenarist
