import Mathlib.Data.List.Basic
import Scenarist.Document.Table
import Scenarist.Proofs.Entries

/-!
# Views of data tables by columns

A table is looked at through `cell?`, the cell in a row and a column, and through `column`, the list
of the cells of a column.  `transpose` makes rows of the columns that all rows have, and `columns`
makes entries of the values below each header.

* `transpose_transpose_cells`, `transpose_transpose_transpose`: swapping twice cuts the rows to the
  shortest one, and after that nothing changes any more.
* `transpose_swaps`: what is swapped, and what two and three swaps do.
* `columns_by_transpose`: the entries of `columns` are the rows of `transpose`.
-/

namespace Scenarist.DataTable

variable {t : DataTable} {c r w : Nat}

/-! ### The shortest row -/

/-- All rows have as many cells. -/
def HasColumns (t : DataTable) (n : Nat) : Prop := ∀ row ∈ t.rows, row.cells.length = n

/-- The length of the shortest row, zero for a table without rows. -/
structure ShortestRow (t : DataTable) (w : Nat) : Prop where
  le : ∀ row ∈ t.rows, w ≤ row.cells.length
  attained : t.rows ≠ [] → ∃ row ∈ t.rows, row.cells.length = w
  none : t.rows = [] → w = 0

theorem ShortestRow.unique {w' : Nat} (h : t.ShortestRow w) (h' : t.ShortestRow w') : w = w' := by
  by_cases hRows : t.rows = []
  · rw [h.none hRows, h'.none hRows]
  · obtain ⟨row, hMem, rfl⟩ := h.attained hRows
    obtain ⟨row', hMem', rfl⟩ := h'.attained hRows
    exact Nat.le_antisymm (h.le row' hMem') (h'.le row hMem)

theorem shortestRow_width (t : DataTable) : t.ShortestRow t.width where
  le row hRow := List.min?_getD_le_of_mem (List.mem_map_of_mem hRow)
  attained hRows := by
    cases hMin : (t.rows.map fun row => row.cells.length).min? with
    | none => exact absurd (List.map_eq_nil_iff.mp (List.min?_eq_none_iff.mp hMin)) hRows
    | some w =>
      obtain ⟨row, hRow, hLength⟩ := List.mem_map.mp (List.min?_eq_some_iff.mp hMin).1
      exact ⟨row, hRow, by rw [width, hMin, hLength, Option.getD_some]⟩
  none hRows := by rw [width, hRows]; rfl

theorem HasColumns.shortestRow (h : t.HasColumns w) (hRows : t.rows ≠ []) : t.ShortestRow w where
  le row hRow := Nat.le_of_eq (h row hRow).symm
  attained _ := by
    obtain ⟨row, hRow⟩ := List.exists_mem_of_ne_nil t.rows hRows
    exact ⟨row, hRow, h row hRow⟩
  none hNone := absurd hNone hRows

theorem HasColumns.width_eq (h : t.HasColumns w) (hRows : t.rows ≠ []) : t.width = w :=
  (shortestRow_width t).unique (h.shortestRow hRows)

theorem rows_ne_nil_of_width_pos (h : 0 < t.width) : t.rows ≠ [] := by
  intro hRows
  rw [(shortestRow_width t).none hRows] at h
  exact absurd h (Nat.lt_irrefl 0)

/-! ### Columns -/

/-- The cell in a row and a column, both counted from zero. -/
def cell? (t : DataTable) (r c : Nat) : Option Cell := t.rows[r]?.bind fun row => row.cells[c]?

/-- The cells that stand in a column, row by row. -/
def column (t : DataTable) (c : Nat) : List Cell := t.rows.filterMap fun row => row.cells[c]?

/-- When nothing is filtered out, every element stays in its place. -/
theorem getElem?_filterMap_of_isSome {α β : Type} {f : α → Option β} {l : List α}
    (h : ∀ x ∈ l, (f x).isSome) (i : Nat) : (l.filterMap f)[i]? = l[i]?.bind f := by
  induction l generalizing i with
  | nil => rfl
  | cons x l ih =>
    obtain ⟨hFirst, hRest⟩ := List.forall_mem_cons.mp h
    obtain ⟨y, hy⟩ := Option.isSome_iff_exists.mp hFirst
    rw [List.filterMap_cons_some hy]
    cases i with
    | zero => exact hy.symm
    | succ i => exact ih hRest i

theorem isSome_of_lt_width (hc : c < t.width) : ∀ row ∈ t.rows, (row.cells[c]?).isSome := by
  intro row hRow
  have hLong := Nat.lt_of_lt_of_le hc ((shortestRow_width t).le row hRow)
  rw [List.getElem?_eq_getElem hLong]
  rfl

theorem length_column (hc : c < t.width) : (t.column c).length = t.rows.length := by
  rw [column, List.length_filterMap_eq_countP, List.countP_eq_length]
  exact isSome_of_lt_width hc

theorem getElem?_column (hc : c < t.width) (r : Nat) : (t.column c)[r]? = t.cell? r c :=
  getElem?_filterMap_of_isSome (isSome_of_lt_width hc) r

/-! ### Swapping rows and columns -/

theorem rows_transpose (t : DataTable) : t.transpose.rows =
    (List.range t.width).map fun c => ⟨toString c, t.location, t.column c⟩ := rfl

theorem length_rows_transpose (t : DataTable) : t.transpose.rows.length = t.width := by
  rw [rows_transpose, List.length_map, List.length_range]

theorem hasColumns_transpose (t : DataTable) : t.transpose.HasColumns t.rows.length := by
  intro row hRow
  obtain ⟨c, hc, rfl⟩ := List.mem_map.mp hRow
  exact length_column (List.mem_range.mp hc)

theorem width_transpose (h : 0 < t.width) : t.transpose.width = t.rows.length := by
  refine (hasColumns_transpose t).width_eq (List.ne_nil_of_length_pos ?_)
  rwa [length_rows_transpose]

theorem cell?_transpose (hc : c < t.width) (r : Nat) : t.transpose.cell? c r = t.cell? r c := by
  rw [← getElem?_column hc, cell?, rows_transpose, List.getElem?_map, List.getElem?_range hc]
  rfl

/-- The first elements of a list, one by one. -/
theorem filterMap_getElem?_range {α : Type} (l : List α) (w : Nat) :
    ((List.range w).filterMap fun c => l[c]?) = l.take w := by
  induction w with
  | zero => rfl
  | succ w ih =>
    rw [List.range_succ, List.filterMap_append, ih, List.take_add_one]
    cases hLast : l[w]? <;> simp [hLast]

/-- A row is a column of the swapped table, as far as it goes there. -/
theorem column_transpose {row : Row} (hRow : t.rows[r]? = some row) :
    t.transpose.column r = row.cells.take t.width := by
  rw [column, rows_transpose, List.filterMap_map, ← filterMap_getElem?_range]
  refine List.filterMap_congr fun c hc => ?_
  show (t.column c)[r]? = row.cells[c]?
  rw [getElem?_column (List.mem_range.mp hc), cell?, hRow, Option.bind_some]

/-- **Swapping twice cuts the rows to the shortest one.** -/
theorem transpose_transpose_cells (h : 0 < t.width) :
    t.transpose.transpose.rows.map Row.cells = t.rows.map fun row => row.cells.take t.width := by
  rw [rows_transpose, width_transpose h, List.map_map]
  refine List.ext_getElem? fun r => ?_
  rw [List.getElem?_map, List.getElem?_map]
  by_cases hr : r < t.rows.length
  · rw [List.getElem?_range hr, List.getElem?_eq_getElem hr]
    exact congrArg some (column_transpose (List.getElem?_eq_getElem hr))
  · rw [List.getElem?_eq_none (by simpa using hr), List.getElem?_eq_none (by simpa using hr)]
    rfl

/-- Nothing is left of a table without a column that all rows have, and so it stays. -/
theorem rows_transpose_of_width_eq_zero (h : t.width = 0) : t.transpose.rows = [] := by
  rw [rows_transpose, h]
  rfl

theorem width_transpose_of_width_eq_zero (h : t.width = 0) : t.transpose.width = 0 :=
  (shortestRow_width _).none (rows_transpose_of_width_eq_zero h)

/-- A swapped table depends on the cells only as far as all rows go. -/
theorem transpose_eq_of_cells {t' : DataTable} (hLocation : t'.location = t.location)
    (hCells : t'.rows.map Row.cells = t.rows.map fun row => row.cells.take t.width)
    (hWidth : t'.width = t.width) : t'.transpose = t.transpose := by
  have hColumn : ∀ c < t.width, t'.column c = t.column c := by
    intro c hc
    have hThis : t'.column c = (t'.rows.map Row.cells).filterMap (·[c]?) := by
      rw [List.filterMap_map]
      rfl
    rw [hThis, hCells, List.filterMap_map]
    exact List.filterMap_congr fun row _ => List.getElem?_take_of_lt hc
  have hRows : t'.transpose.rows = t.transpose.rows := by
    rw [rows_transpose, rows_transpose, hWidth, hLocation]
    refine List.map_congr_left fun c hc => ?_
    rw [hColumn c (List.mem_range.mp hc)]
  show DataTable.mk t'.location t'.transpose.rows = DataTable.mk t.location t.transpose.rows
  rw [hLocation, hRows]

/-- **A third swap gives what the first one gave**, with its identifiers and locations. -/
theorem transpose_transpose_transpose (t : DataTable) :
    t.transpose.transpose.transpose = t.transpose := by
  by_cases h : t.width = 0
  · have hFirst := rows_transpose_of_width_eq_zero h
    have hThird := rows_transpose_of_width_eq_zero
      (width_transpose_of_width_eq_zero (width_transpose_of_width_eq_zero h))
    show DataTable.mk t.location t.transpose.transpose.transpose.rows =
      DataTable.mk t.location t.transpose.rows
    rw [hFirst, hThird]
  · have hPos : 0 < t.width := Nat.pos_of_ne_zero h
    have hTwice : 0 < t.transpose.width := by
      rw [width_transpose hPos]
      exact List.length_pos_of_ne_nil (rows_ne_nil_of_width_pos hPos)
    refine transpose_eq_of_cells rfl (transpose_transpose_cells hPos) ?_
    rw [width_transpose hTwice, length_rows_transpose]

/-! ### What is swapped -/

/-- The rows of the second table are the first `w` columns of the first one, numbered from zero; all
of them stand where the first table does. -/
structure SwappedTo (t : DataTable) (w : Nat) (t' : DataTable) : Prop where
  location : t'.location = t.location
  numbers : t'.rows.map Row.id = (List.range w).map toString
  locations : ∀ row ∈ t'.rows, row.location = t.location
  cells : ∀ c < w, ∀ r, t'.cell? c r = t.cell? r c

theorem swappedTo_transpose (t : DataTable) : t.SwappedTo t.width t.transpose where
  location := rfl
  numbers := by
    rw [rows_transpose, List.map_map]
    rfl
  locations row hRow := by
    obtain ⟨c, _, rfl⟩ := List.mem_map.mp hRow
    rfl
  cells _ hc r := cell?_transpose hc r

theorem values_eq_map_cells (t : DataTable) :
    t.values = (t.rows.map Row.cells).map (List.map Cell.value) := by
  rw [List.map_map]
  rfl

theorem transpose_transpose_values (t : DataTable) :
    t.transpose.transpose.values =
      if t.width = 0 then [] else t.values.map (List.take t.width) := by
  split
  · next h =>
    rw [values, rows_transpose_of_width_eq_zero (width_transpose_of_width_eq_zero h), List.map_nil]
  · next h =>
    rw [values_eq_map_cells, transpose_transpose_cells (Nat.pos_of_ne_zero h), List.map_map, values,
      List.map_map]
    exact List.map_congr_left fun row _ => List.map_take

/-- A table whose rows are all of one length, with at least one column, loses nothing. -/
theorem HasColumns.transpose_transpose_values {n : Nat} (h : t.HasColumns n) (hn : 0 < n) :
    t.transpose.transpose.values = t.values := by
  rw [DataTable.transpose_transpose_values]
  by_cases hRows : t.rows = []
  · rw [if_pos ((shortestRow_width t).none hRows), values, hRows, List.map_nil]
  · rw [h.width_eq hRows, if_neg (Nat.ne_of_gt hn)]
    refine (List.map_congr_left fun vs hvs => ?_).trans (List.map_id' _)
    obtain ⟨row, hRow, rfl⟩ := List.mem_map.mp hvs
    exact List.take_of_length_le (by rw [Row.values, List.length_map, h row hRow])

/-- **Rows and columns of any table, swapped once, twice and three times.**  As many columns are
swapped as the shortest row has cells.  Swapped twice the table has its values back, with every row
cut to that length, and no row is left when there is no column at all; so a table with rows of one
length and at least one column has all its values back.  The third swap gives the table of the
first. -/
theorem transpose_swaps (t : DataTable) :
    t.ShortestRow t.width ∧ t.SwappedTo t.width t.transpose ∧
    t.transpose.transpose.values = (if t.width = 0 then [] else t.values.map (List.take t.width)) ∧
    (∀ n, 0 < n → t.HasColumns n → t.transpose.transpose.values = t.values) ∧
    t.transpose.transpose.transpose = t.transpose :=
  ⟨shortestRow_width t, swappedTo_transpose t, t.transpose_transpose_values,
    fun _ hn h => h.transpose_transpose_values hn, t.transpose_transpose_transpose⟩

/-- A table of values, all at one place. -/
def ofValues (rows : List (List String)) : DataTable :=
  ⟨⟨1, 1⟩, rows.map fun values => ⟨"", ⟨1, 1⟩, values.map (⟨⟨1, 1⟩, ·⟩)⟩⟩

example : (ofValues [["a", "b", "c"], ["1", "2"]]).transpose.transpose.values =
    [["a", "b"], ["1", "2"]] := by decide

/-! ### Entries below headers -/

/-- A view by columns fails exactly when there are fewer than two rows. -/
theorem columns_eq_error_iff {fault : TableShapeFault} :
    t.columns = .error fault ↔ t.rows.length < 2 ∧ fault = ⟨t.location.line, t.rows.length⟩ := by
  unfold DataTable.columns
  rcases t.rows with _ | ⟨header, _ | ⟨first, others⟩⟩
  · simp [eq_comm]
  · simp [eq_comm]
  · simp

/-- The cells of a header, each with the values below it. -/
def entries (header : Row) (body : List Row) : List (String × List String) :=
  header.values.zipIdx.map fun (name, c) => (name, body.filterMap fun row => row.values[c]?)

variable {header : Row} {body : List Row}

theorem columns_eq_ok (h : t.rows = header :: body) (hBody : body ≠ []) :
    t.columns = .ok (Entries.ofList (entries header body)) := by
  obtain ⟨first, others, rfl⟩ := List.exists_cons_of_ne_nil hBody
  rw [columns, h]
  rfl

theorem names_entries (header : Row) (body : List Row) :
    Entries.names (entries header body) = header.values := by
  rw [Entries.names, entries, List.map_map]
  exact List.zipIdx_map_fst 0 header.values

theorem values_transpose (t : DataTable) : t.transpose.values =
    (List.range t.width).map fun c => t.rows.filterMap fun row => row.values[c]? := by
  rw [values, rows_transpose, List.map_map]
  refine List.map_congr_left fun c _ => ?_
  show (t.column c).map Cell.value = _
  rw [column, List.map_filterMap]
  exact List.filterMap_congr fun row _ => List.getElem?_map.symm

/-- **The rows of the swapped table are the entries below the headers.** -/
theorem values_transpose_eq_entries {n : Nat} (hRows : t.rows = header :: body)
    (h : t.HasColumns n) :
    t.transpose.values = (entries header body).map fun e => e.1 :: e.2 := by
  have hWidth : t.width = header.values.length := by
    rw [h.width_eq (by rw [hRows]; exact List.cons_ne_nil _ _), Row.values, List.length_map]
    exact (h header (by rw [hRows]; exact List.mem_cons_self)).symm
  rw [values_transpose, entries, List.map_map, hRows, hWidth]
  refine List.ext_getElem? fun c => ?_
  by_cases hc : c < header.values.length
  · have hName := List.getElem?_eq_getElem hc
    have hColumn : (header :: body).filterMap (fun row => row.values[c]?) =
        header.values[c] :: body.filterMap fun row => row.values[c]? :=
      List.filterMap_cons_some hName
    rw [List.getElem?_map, List.getElem?_range hc, Option.map_some, hColumn, List.getElem?_map,
      List.getElem?_zipIdx, hName]
    simp
  · rw [List.getElem?_eq_none (by simpa using hc), List.getElem?_eq_none (by simpa using hc)]

/-- **The two views of a table by columns agree.**  When the rows are of one length, there are at
least two of them and no header is repeated, `columns` has one entry for each column: the entries,
each with its name in front of its values, are the rows of the swapped table, in the order of their
names.  `columns` fails for tables of fewer than two rows only, and tells the line of the table and
the number of its rows. -/
theorem columns_by_transpose (t : DataTable) :
    (∀ n, t.HasColumns n → 2 ≤ t.rows.length → (∀ header ∈ t.rows.head?, header.values.Nodup) →
      ∃ found, t.columns = .ok found ∧ Entries.Ascending found ∧
        (found.map fun e => e.1 :: e.2).Perm t.transpose.values ∧
        found.length = n ∧ ∀ e ∈ found, e.2.length = t.rows.length - 1) ∧
    ∀ fault, t.columns = .error fault ↔
      t.rows.length < 2 ∧ fault = ⟨t.location.line, t.rows.length⟩ := by
  refine ⟨fun n h hTwo hNodup => ?_, fun fault => columns_eq_error_iff⟩
  obtain ⟨header, body, hRows⟩ : ∃ header body, t.rows = header :: body :=
    List.exists_cons_of_ne_nil (List.ne_nil_of_length_pos (by omega))
  have hBody : body ≠ [] := by
    rintro rfl
    rw [hRows, List.length_singleton] at hTwo
    omega
  have hNames : (Entries.names (entries header body)).Nodup := by
    rw [names_entries]
    exact hNodup header (by rw [hRows]; rfl)
  have hPerm : ((Entries.ofList (entries header body)).map fun e => e.1 :: e.2).Perm
      t.transpose.values := by
    rw [values_transpose_eq_entries hRows h]
    exact (Entries.ofList_perm hNames).map _
  refine ⟨_, columns_eq_ok hRows hBody, Entries.ascending_ofList _, hPerm, ?_, fun e he => ?_⟩
  · have hLength := hPerm.length_eq
    rw [List.length_map, values, List.length_map, length_rows_transpose] at hLength
    rw [hLength, h.width_eq (List.ne_nil_of_length_pos (by omega))]
  · -- an entry is a row of the swapped table, which has a cell from every row
    have hMem : e.1 :: e.2 ∈ t.transpose.values := hPerm.subset (List.mem_map_of_mem he)
    obtain ⟨row, hRow, hValues⟩ := List.mem_map.mp hMem
    have hLength := congrArg List.length hValues
    rw [Row.values, List.length_map, hasColumns_transpose t row hRow, List.length_cons] at hLength
    omega

/-! A table whose headers are not in the order of the entries. -/

def peopleTable : DataTable := ofValues [["name", "age"], ["Bo", "3"], ["Al", "5"]]

theorem columns_by_transpose_people :
    peopleTable.HasColumns 2 ∧ 2 ≤ peopleTable.rows.length ∧
    (∀ header ∈ peopleTable.rows.head?, header.values.Nodup) ∧
    peopleTable.columns = .ok [("age", ["3", "5"]), ("name", ["Bo", "Al"])] ∧
    ∃ found, peopleTable.columns = .ok found ∧ Entries.Ascending found ∧
      (found.map fun e => e.1 :: e.2).Perm peopleTable.transpose.values ∧
      found.length = 2 ∧ ∀ e ∈ found, e.2.length = peopleTable.rows.length - 1 := by
  have hColumns : peopleTable.HasColumns 2 := by
    unfold HasColumns
    decide
  have hRows : 2 ≤ peopleTable.rows.length := by decide
  have hNames : ∀ header ∈ peopleTable.rows.head?, header.values.Nodup := by
    rintro header ⟨⟩
    decide
  have hFound : peopleTable.columns = .ok [("age", ["3", "5"]), ("name", ["Bo", "Al"])] := by
    decide +kernel
  have hAgree := (columns_by_transpose peopleTable).1 2 hColumns hRows hNames
  exact ⟨hColumns, hRows, hNames, hFound, hAgree⟩

end Scenarist.DataTable
