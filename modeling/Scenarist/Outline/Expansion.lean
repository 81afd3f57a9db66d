import Scenarist.Document.Basic
import Scenarist.Entries
import Scenarist.Outline.Substitution

/-!
# Expanding outlines

A scenario with examples is a template: every row of its tables gives one concrete scenario, with the
values of the row put into step texts and table cells. A scenario without examples is concrete.
-/

namespace Scenarist

/-- The row of examples that a concrete scenario comes from. -/
structure ExampleRow where
  tableIndex : Nat
  rowIndex : Nat
  parameters : Outline.Parameters
  deriving DecidableEq, Repr

/-- A scenario without examples, ready to run. -/
structure ConcreteScenario where
  scenario : Scenario
  origin : Option ExampleRow
  deriving DecidableEq, Repr

namespace Outline

/-- Puts values into the cells of a table. -/
def renderTable (ps : Parameters) (t : DataTable) : DataTable :=
  { t with rows := t.rows.map fun r =>
      { r with cells := r.cells.map fun c => { c with value := substitute ps c.value } } }

/-- Puts values into the text and the table of a step. -/
def renderStep (ps : Parameters) (s : Step) : Step :=
  { s with text := substitute ps s.text, dataTable := s.dataTable.map (renderTable ps) }

/-- Adds the tags whose names are not among the tags so far, the first of each name. -/
def tagUnion (tags extra : List Tag) : List Tag :=
  extra.foldl (fun merged t =>
    if merged.any fun seen => seen.name == t.name then merged else merged ++ [t]) tags

/-- The parameters of a row of examples. -/
def parameters (e : ExamplesTable) (r : Row) : Parameters := e.parameterNames.zip r.values

/-- The scenario of a row of examples. -/
def renderRow (s : Scenario) (e : ExamplesTable) (table row : Nat) (r : Row) : ConcreteScenario :=
  let ps := parameters e r
  { scenario := { s with
      tags := tagUnion s.tags e.tags
      steps := s.steps.map (renderStep ps)
      examples := [] }
    origin := some ⟨table, row, ps⟩ }

/-- The scenario of the row at an index, if there is such a row. -/
def render (s : Scenario) (e : ExamplesTable) (table row : Nat) : Option ConcreteScenario :=
  e.tableBody[row]?.map (renderRow s e table row)

end Outline

/-- The concrete scenarios of a scenario, table by table and row by row. -/
def Scenario.expand (s : Scenario) : List ConcreteScenario :=
  if s.isTemplated then
    s.examples.zipIdx.flatMap fun (e, table) =>
      e.tableBody.zipIdx.map fun (r, row) => Outline.renderRow s e table row r
  else [⟨s, none⟩]

/-- The labels of the tags of a concrete scenario, in order and without repetition. -/
def ConcreteScenario.tagLabels (c : ConcreteScenario) : List String :=
  Entries.names (Entries.ofList (c.scenario.tagNames.map fun label => (label, ())))

end Scenarist
