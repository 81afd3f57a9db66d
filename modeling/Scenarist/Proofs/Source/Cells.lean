import Mathlib.Data.List.Basic
import Scenarist.Proofs.Text.Blank
import Scenarist.Source.Basic

/-!
# Cells of a written row

`writeRow` writes a table row: each value between blanks, with a backslash in front of the characters
that a reader would take for something else, and a bar behind each cell.  A value that is written
may have blanks inside it but neither begins nor ends with one, unless this is a line feed, which is
written as two characters.

* `cellsFrom_writeValue`: a written value is read character by character.  `Holds` says what an open
  cell knows meanwhile: where its content begins, what has been read, and that no gap is open when
  this ends with content.
* `cellsFrom_text`: a written cell is read as its value, at the column where the value begins.
* `cells_written`: so a line with a written row has the values of that row, in order, at columns that
  ascend.
-/

namespace Scenarist

namespace Source

open Text

/-! ### Writing -/

/-- What a character of a value is written as. -/
def writeChar (c : Char) : List Char :=
  if c = '\\' then ['\\', '\\']
  else if c = '|' then ['\\', '|']
  else if c = '\n' then ['\\', 'n']
  else [c]

def writeValue (s : List Char) : List Char := s.flatMap writeChar

/-- The character can be told from the blanks around a value. -/
def IsContent (c : Char) : Prop := c = '\n' ∨ isBlank c = false

instance : DecidablePred IsContent := fun c =>
  inferInstanceAs (Decidable (c = '\n' ∨ isBlank c = false))

/-- A value with the blanks that are written around it. -/
structure WrittenCell where
  before : List Char
  value : String
  after : List Char
  before_blank : ∀ c ∈ before, isBlank c = true
  after_blank : ∀ c ∈ after, isBlank c = true
  first : ∀ c ∈ value.toList.head?, IsContent c
  last : ∀ c ∈ value.toList.getLast?, IsContent c

namespace WrittenCell

/-- The cell as it is written, up to the bar that ends it. -/
def text (cell : WrittenCell) : List Char :=
  cell.before ++ (writeValue cell.value.toList ++ (cell.after ++ ['|']))

/-- The column of the value in a cell that begins at column `k`; without a value, that of the
cell. -/
def column (cell : WrittenCell) (k : Nat) : Nat :=
  if cell.value = "" then k else k + cell.before.length

end WrittenCell

/-- The row of cells behind an indentation. -/
def writeRow (indent : List Char) (row : List WrittenCell) : List Char :=
  indent ++ '|' :: row.flatMap WrittenCell.text

/-! ### Reading a value -/

namespace OpenCell

/-- What reading a written character does to a cell. -/
def take (cell : OpenCell) (k : Nat) (c : Char) : OpenCell :=
  if c = '\n' then cell.add k c else cell.addPlain k c

/-- Behind `s` the content of the cell is known to begin at `column`, and what has been read is `s`.
No gap is open when `s` ends with content. -/
structure Holds (cell : OpenCell) (column : Nat) (s : List Char) : Prop where
  content : cell.content = some column
  read : (cell.gap ++ cell.value).reverse = s
  tight : (∀ c ∈ s.getLast?, IsContent c) → cell.gap = []

variable {cell : OpenCell} {column k : Nat} {c : Char} {s : List Char}

theorem take_of_isContent (h : IsContent c) (cell : OpenCell) (k : Nat) :
    cell.take k c = cell.add k c := by
  unfold take addPlain
  rcases h with rfl | hPlain
  · rfl
  · simp [hPlain]

theorem holds_take_begin (h : IsContent c) (start k : Nat) :
    ((begin start).take k c).Holds k [c] := by
  rw [take_of_isContent h]
  exact ⟨rfl, rfl, fun _ => rfl⟩

theorem Holds.take (h : cell.Holds column s) (k : Nat) (c : Char) :
    (cell.take k c).Holds column (s ++ [c]) := by
  obtain ⟨content, read, -⟩ := h
  by_cases hContent : IsContent c
  · rw [take_of_isContent hContent]
    refine ⟨?_, ?_, fun _ => rfl⟩
    · rw [add, content, Option.getD_some]
    · rw [← read, ← List.reverse_cons]
      rfl
  · obtain ⟨hNotFeed, hBlank⟩ := not_or.mp hContent
    have hGap : cell.take k c = { cell with gap := c :: cell.gap } := by
      simp [OpenCell.take, addPlain, hNotFeed, hBlank, content]
    rw [hGap]
    refine ⟨content, ?_, fun hLast => absurd (hLast c ?_) hContent⟩
    · rw [← read, ← List.reverse_cons]
      rfl
    · rw [List.getLast?_concat]
      rfl

theorem close_addPlain (hBlank : isBlank c = true) (cell : OpenCell) (k : Nat) :
    (cell.addPlain k c).close = cell.close := by
  unfold addPlain
  rw [hBlank]
  split
  · contradiction
  · split <;> rfl

end OpenCell

variable {k column : Nat} {cell : OpenCell} {s : List Char}

theorem cellsFrom_bar (k : Nat) (cell : OpenCell) (rest : List Char) :
    cellsFrom k (some cell) ('|' :: rest) =
      cell.close :: cellsFrom (k + 1) (some (.begin (k + 1))) rest := by
  rw [cellsFrom.eq_def]
  rfl

theorem cellsFrom_plain {c : Char} (hBar : c ≠ '|') (hBackslash : c ≠ '\\') (k : Nat)
    (cell : OpenCell) (rest : List Char) :
    cellsFrom k (some cell) (c :: rest) = cellsFrom (k + 1) (some (cell.addPlain k c)) rest := by
  rw [cellsFrom.eq_def]
  simp only [if_neg hBar, if_neg hBackslash]

theorem cellsFrom_escaped {d e : Char} (h : unescaped? d = some e) (k : Nat) (cell : OpenCell)
    (rest : List Char) :
    cellsFrom k (some cell) ('\\' :: d :: rest) =
      cellsFrom (k + 2) (some (cell.add k e)) rest := by
  have hBar : '\\' ≠ '|' := by decide
  rw [cellsFrom.eq_def]
  simp only [if_neg hBar, if_pos, h]

theorem cellsFrom_writeChar (k : Nat) (cell : OpenCell) (c : Char) (rest : List Char) :
    cellsFrom k (some cell) (writeChar c ++ rest) =
      cellsFrom (k + (writeChar c).length) (some (cell.take k c)) rest := by
  unfold writeChar
  split
  · next h =>
    subst h
    exact cellsFrom_escaped rfl k cell rest
  · next hBackslash =>
    split
    · next h =>
      subst h
      exact cellsFrom_escaped rfl k cell rest
    · next hBar =>
      split
      · next h =>
        subst h
        exact cellsFrom_escaped rfl k cell rest
      · next hFeed =>
        rw [OpenCell.take, if_neg hFeed]
        exact cellsFrom_plain hBar hBackslash k cell rest

/-- **A written value is read character by character.** -/
theorem cellsFrom_writeValue (h : cell.Holds column s) (k : Nat) (v rest : List Char) :
    ∃ cell', OpenCell.Holds cell' column (s ++ v) ∧
      cellsFrom k (some cell) (writeValue v ++ rest) =
        cellsFrom (k + (writeValue v).length) (some cell') rest := by
  induction v generalizing cell s k with
  | nil => exact ⟨cell, by rwa [List.append_nil], rfl⟩
  | cons c v ih =>
    obtain ⟨cell', hHolds, hRead⟩ := ih (h.take k c) (k + (writeChar c).length)
    refine ⟨cell', by rwa [List.append_assoc, List.singleton_append] at hHolds, ?_⟩
    rw [writeValue, List.flatMap_cons, List.append_assoc, cellsFrom_writeChar, List.length_append,
      ← Nat.add_assoc]
    exact hRead

/-- The value of a cell is what the cell is closed with, at the column where it begins. -/
theorem cellsFrom_content {v : List Char} (hFirst : ∀ c ∈ v.head?, IsContent c)
    (hLast : ∀ c ∈ v.getLast?, IsContent c) (start k : Nat) (rest : List Char) :
    ∃ cell, OpenCell.close cell = (if v = [] then start else k, v) ∧
      cellsFrom k (some (.begin start)) (writeValue v ++ rest) =
        cellsFrom (k + (writeValue v).length) (some cell) rest := by
  cases v with
  | nil => exact ⟨.begin start, rfl, rfl⟩
  | cons c v =>
    obtain ⟨cell, hHolds, hRead⟩ := cellsFrom_writeValue
      (OpenCell.holds_take_begin (hFirst c rfl) start k) (k + (writeChar c).length) v rest
    refine ⟨cell, ?_, ?_⟩
    · have hAll := hHolds.read
      rw [hHolds.tight hLast, List.nil_append] at hAll
      rw [OpenCell.close, hHolds.content, hAll]
      rfl
    · rw [writeValue, List.flatMap_cons, List.append_assoc, cellsFrom_writeChar, List.length_append,
        ← Nat.add_assoc]
      exact hRead

/-- Blanks change nothing that a cell is closed with, and nothing at all before its content. -/
theorem cellsFrom_blanks (hBlank : ∀ c ∈ s, isBlank c = true) (k : Nat) (cell : OpenCell)
    (rest : List Char) :
    ∃ cell', OpenCell.close cell' = cell.close ∧ (cell.content = none → cell' = cell) ∧
      cellsFrom k (some cell) (s ++ rest) = cellsFrom (k + s.length) (some cell') rest := by
  induction s generalizing cell k with
  | nil => exact ⟨cell, rfl, fun _ => rfl, rfl⟩
  | cons c s ih =>
    obtain ⟨hFirst, hRest⟩ := List.forall_mem_cons.mp hBlank
    have hBar : c ≠ '|' := by
      rintro rfl
      cases hFirst
    have hBackslash : c ≠ '\\' := by
      rintro rfl
      cases hFirst
    obtain ⟨cell', hClose, hSame, hRead⟩ := ih hRest (k + 1) (cell.addPlain k c)
    refine ⟨cell', ?_, fun hNone => ?_, ?_⟩
    · rw [hClose, OpenCell.close_addPlain hFirst]
    · have hKept : cell.addPlain k c = cell := by simp [OpenCell.addPlain, hFirst, hNone]
      rw [hKept] at hSame
      exact hSame hNone
    · rw [List.cons_append, cellsFrom_plain hBar hBackslash, hRead, List.length_cons,
        Nat.add_right_comm, Nat.add_assoc]

/-! ### Reading cells -/

/-- **A written cell is read as its value, at the column where the value begins.** -/
theorem cellsFrom_text (w : WrittenCell) (k : Nat) (rest : List Char) :
    cellsFrom k (some (.begin k)) (w.text ++ rest) =
      (w.column k, w.value.toList) ::
        cellsFrom (k + w.text.length) (some (.begin (k + w.text.length))) rest := by
  have hText : w.text ++ rest =
      w.before ++ (writeValue w.value.toList ++ (w.after ++ '|' :: rest)) := by
    simp [WrittenCell.text]
  have hLength : k + w.text.length =
      k + w.before.length + (writeValue w.value.toList).length + w.after.length + 1 := by
    simp only [WrittenCell.text, List.length_append, List.length_singleton]
    omega
  obtain ⟨_, -, hSame, hBefore⟩ := cellsFrom_blanks w.before_blank k (.begin k)
    (writeValue w.value.toList ++ (w.after ++ '|' :: rest))
  obtain rfl := hSame rfl
  obtain ⟨cell, hValue, hContent⟩ := cellsFrom_content w.first w.last k (k + w.before.length)
    (w.after ++ '|' :: rest)
  obtain ⟨cell', hClose, -, hAfter⟩ := cellsFrom_blanks w.after_blank
    (k + w.before.length + (writeValue w.value.toList).length) cell ('|' :: rest)
  rw [hText, hLength, hBefore, hContent, hAfter, cellsFrom_bar, hClose, hValue, WrittenCell.column]
  simp only [String.toList_eq_nil_iff]

/-- The cells of a row whose first cell begins at column `k`. -/
def located : Nat → List WrittenCell → List (Nat × List Char)
  | _, [] => []
  | k, w :: row => (w.column k, w.value.toList) :: located (k + w.text.length) row

theorem cellsFrom_row (k : Nat) (row : List WrittenCell) :
    cellsFrom k (some (.begin k)) (row.flatMap WrittenCell.text) = located k row := by
  induction row generalizing k with
  | nil => rw [List.flatMap_nil, cellsFrom, located]
  | cons w row ih => rw [List.flatMap_cons, cellsFrom_text, ih, located]

theorem cellsFrom_indent {indent : List Char} (hBlank : ∀ c ∈ indent, isBlank c = true) (k : Nat)
    (rest : List Char) :
    cellsFrom k none (indent ++ '|' :: rest) =
      cellsFrom (k + indent.length + 1) (some (.begin (k + indent.length + 1))) rest := by
  induction indent generalizing k with
  | nil =>
    rw [List.nil_append, cellsFrom, if_pos rfl]
    rfl
  | cons c indent ih =>
    obtain ⟨hFirst, hRest⟩ := List.forall_mem_cons.mp hBlank
    have hBar : c ≠ '|' := by
      rintro rfl
      cases hFirst
    have hLength : k + (c :: indent).length + 1 = k + 1 + indent.length + 1 := by
      rw [List.length_cons]
      omega
    rw [List.cons_append, cellsFrom.eq_def, hLength, ← ih hRest]
    simp only [if_neg hBar]

theorem cellsOf_writeRow {indent : List Char} (hBlank : ∀ c ∈ indent, isBlank c = true)
    (row : List WrittenCell) : cellsOf (writeRow indent row) = located (indent.length + 2) row := by
  have hColumn : 1 + indent.length + 1 = indent.length + 2 := by omega
  rw [cellsOf, writeRow, cellsFrom_indent hBlank, hColumn, cellsFrom_row]

/-! ### Places -/

theorem map_snd_located (k : Nat) (row : List WrittenCell) :
    (located k row).map (·.2) = row.map (·.value.toList) := by
  induction row generalizing k with
  | nil => rfl
  | cons w row ih => rw [located, List.map_cons, List.map_cons, ih]

theorem getElem?_located (k : Nat) (front : List WrittenCell) (w : WrittenCell)
    (back : List WrittenCell) :
    (located k (front ++ w :: back))[front.length]? =
      some (w.column (k + (front.flatMap WrittenCell.text).length), w.value.toList) := by
  induction front generalizing k with
  | nil => rfl
  | cons v front ih =>
    rw [List.cons_append, located, List.length_cons, List.getElem?_cons_succ, ih,
      List.flatMap_cons, List.length_append, Nat.add_assoc]

theorem le_column (w : WrittenCell) (k : Nat) : k ≤ w.column k := by
  unfold WrittenCell.column
  split <;> omega

theorem column_lt (w : WrittenCell) (k : Nat) : w.column k < k + w.text.length := by
  have hLength : w.before.length < w.text.length := by
    simp only [WrittenCell.text, List.length_append, List.length_singleton]
    omega
  unfold WrittenCell.column
  split <;> omega

theorem le_of_mem_located {k : Nat} {row : List WrittenCell} {e : Nat × List Char}
    (h : e ∈ located k row) : k ≤ e.1 := by
  induction row generalizing k with
  | nil => exact absurd h List.not_mem_nil
  | cons w row ih =>
    rcases List.mem_cons.mp h with rfl | h
    · exact le_column w k
    · exact Nat.le_trans (Nat.le_add_right k _) (ih h)

/-- A cell begins behind the value of the one before it. -/
theorem pairwise_located (k : Nat) (row : List WrittenCell) :
    (located k row).Pairwise fun e e' => e.1 < e'.1 := by
  induction row generalizing k with
  | nil => exact List.Pairwise.nil
  | cons w row ih =>
    refine List.pairwise_cons.mpr ⟨fun e he => ?_, ih _⟩
    exact Nat.lt_of_lt_of_le (column_lt w k) (le_of_mem_located he)

end Source

open Source Text

/-- **Reading a table row undoes writing it.**  In a line with a written row there is one cell for
each that was written.

* The values are the ones that were written, in order.
* The column of a cell is that of the first character of its value; without a value, it is the
  column behind the bar that opens the cell.
* The columns ascend. -/
theorem SourceText.cells_written {indent : List Char} (hBlank : ∀ c ∈ indent, isBlank c = true)
    (row : List WrittenCell) {t : SourceText} {n : Nat}
    (hLine : t.line? n = some (writeRow indent row)) :
    (t.cells n).map (·.2) = row.map (·.value) ∧
    (∀ front w back, row = front ++ w :: back →
      (t.cells n)[front.length]? =
        some (w.column ((writeRow indent front).length + 1), w.value)) ∧
    ((t.cells n).map (·.1)).Pairwise (· < ·) := by
  have hCells : t.cells n =
      (located (indent.length + 2) row).map fun cell => (cell.1, String.ofList cell.2) := by
    rw [cells, lineAt, hLine, Option.getD_some, cellsOf_writeRow hBlank]
  refine ⟨?_, ?_, ?_⟩
  · have hValues := congrArg (List.map String.ofList) (map_snd_located (indent.length + 2) row)
    rw [List.map_map, List.map_map] at hValues
    rw [hCells, List.map_map]
    exact hValues.trans (List.map_congr_left fun w _ => String.ofList_toList)
  · rintro front w back rfl
    have hColumn : indent.length + 2 + (front.flatMap WrittenCell.text).length =
        (writeRow indent front).length + 1 := by
      simp only [writeRow, List.length_append, List.length_cons]
      omega
    rw [hCells, List.getElem?_map, getElem?_located, hColumn, Option.map_some]
    exact congrArg (fun value => some (_, value)) String.ofList_toList
  · rw [hCells, List.map_map, List.pairwise_map]
    exact pairwise_located _ row

/-- A line feed as a value, a value with a bar and a backslash, and no value. -/
def escapedRow : List WrittenCell :=
  [⟨['\t'], "\n", [], by simp [isBlank], by simp, by simp [IsContent], by simp [IsContent]⟩,
    ⟨[' '], "a|\\b", [' '], by simp [isBlank], by simp [isBlank], by simp [IsContent, isBlank],
      by simp [IsContent, isBlank]⟩,
    ⟨[' ', ' '], "", [], by simp [isBlank], by simp, by simp, by simp⟩]

theorem SourceText.cells_written_escapes :
    let t := SourceText.ofText "Feature: a\n  |\t\\n| a\\|\\\\b |  |\r\n".toList
    t.line? 2 = some (writeRow [' ', ' '] escapedRow) ∧
      (t.cells 2).map (·.2) = ["\n", "a|\\b", ""] ∧
      ((t.cells 2).map (·.1)).Pairwise (· < ·) := by
  intro t
  have hBlank : ∀ c ∈ [' ', ' '], isBlank c = true := by simp [isBlank]
  have hLine : t.line? 2 = some (writeRow [' ', ' '] escapedRow) := by decide +kernel
  obtain ⟨hValues, -, hAscend⟩ := cells_written hBlank escapedRow hLine
  exact ⟨hLine, hValues, hAscend⟩

end Scenarist
