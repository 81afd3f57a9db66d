import Scenarist.Document.Basic
import Scenarist.Entries

/-!
# Views of data tables
-/

namespace Scenarist

/-- A table with too few rows to be read by its header. -/
structure TableShapeFault where
  line : Nat
  rows : Nat
  deriving DecidableEq, Repr

def TableShapeFault.message (f : TableShapeFault) : String :=
  s!"data table at line {f.line} needs at least two rows: one for headers and one for values, " ++
    s!"found {f.rows}"

namespace DataTable

/-- The cell values, row by row. -/
def values (t : DataTable) : List (List String) := t.rows.map Row.values

/-- The length of the shortest row; zero without rows. -/
def width (t : DataTable) : Nat := ((t.rows.map fun r => r.cells.length).min?).getD 0

/-- The table with rows and columns swapped, as far as the shortest row goes. -/
def transpose (t : DataTable) : DataTable :=
  { t with rows := (List.range t.width).map fun c =>
      ⟨toString c, t.location, t.rows.filterMap fun r => r.cells[c]?⟩ }

/-- The values below each header, in the order of the headers' names; of two equal headers the last
counts. -/
def columns (t : DataTable) : Except TableShapeFault (List (String × List String)) :=
  match t.rows with
  | header :: first :: others =>
    .ok (Entries.ofList (header.values.zipIdx.map fun (name, c) =>
      (name, (first :: others).filterMap fun r => r.values[c]?)))
  | rows => .error ⟨t.location.line, rows.length⟩

end DataTable

end Scenarist
