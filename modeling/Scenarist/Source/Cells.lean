import Scenarist.Text.Blank

/-!
# Cells and tags in a line

Each is found with the column at which it stands, counted from one.
-/

namespace Scenarist.Source

open Text

/-- A cell whose end has not been reached. -/
structure OpenCell where
  /-- The column behind the bar that opens the cell. -/
  start : Nat
  /-- The column of the first character of the content. -/
  content : Option Nat
  /-- The content so far, in reverse. -/
  value : List Char
  /-- The blanks behind it, in reverse. -/
  gap : List Char

namespace OpenCell

def begin (start : Nat) : OpenCell := ⟨start, none, [], []⟩

/-- Adds a character to the content. -/
def add (cell : OpenCell) (column : Nat) (c : Char) : OpenCell :=
  { cell with
    content := some (cell.content.getD column)
    value := c :: (cell.gap ++ cell.value)
    gap := [] }

/-- Adds a character that counts only between others when it is blank. -/
def addPlain (cell : OpenCell) (column : Nat) (c : Char) : OpenCell :=
  if !isBlank c then cell.add column c
  else if cell.content.isSome then { cell with gap := c :: cell.gap }
  else cell

/-- The column and the value of a cell. -/
def close (cell : OpenCell) : Nat × List Char :=
  (cell.content.getD cell.start, cell.value.reverse)

end OpenCell

/-- The character that a backslash makes of the one after it. -/
def unescaped? : Char → Option Char
  | '|' => some '|'
  | '\\' => some '\\'
  | 'n' => some '\n'
  | _ => none

/-- The cells of the text from `column` on, with the cell that is open there. -/
def cellsFrom (column : Nat) (cell : Option OpenCell) (s : List Char) : List (Nat × List Char) :=
  match s with
  | [] => []
  | c :: rest =>
    if c = '|' then
      (cell.map OpenCell.close).toList ++
        cellsFrom (column + 1) (some (.begin (column + 1))) rest
    else match cell with
      | none => cellsFrom (column + 1) none rest
      | some cell =>
        if c = '\\' then
          match rest with
          | [] => []
          | d :: after =>
            match unescaped? d with
            | some e => cellsFrom (column + 2) (some (cell.add column e)) after
            | none => cellsFrom (column + 1) (some (cell.add column '\\')) (d :: after)
        else cellsFrom (column + 1) (some (cell.addPlain column c)) rest
termination_by s.length

/-- The cells of a line. Text behind the last bar is no cell. -/
def cellsOf (line : List Char) : List (Nat × List Char) := cellsFrom 1 none line

/-- The tags of the text from `column` on, with the column and the reversed name of the tag that is
open there. A comment ends the tags. -/
def tagsFrom : Nat → Option (Nat × List Char) → List Char → List (Nat × List Char)
  | _, open_, [] => (open_.map fun (start, name) => (start, name.reverse)).toList
  | column, open_, c :: rest =>
    if isBlank c then
      (open_.map fun (start, name) => (start, name.reverse)).toList ++ tagsFrom (column + 1) none rest
    else match open_ with
      | some (start, name) => tagsFrom (column + 1) (some (start, c :: name)) rest
      | none => if c = '#' then [] else tagsFrom (column + 1) (some (column, [c])) rest

/-- The tags of a line. -/
def tagsOf (line : List Char) : List (Nat × List Char) := tagsFrom 1 none line

end Scenarist.Source
