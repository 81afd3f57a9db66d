/-!
# Lines

`pieces` cuts a text at every line feed, so `n` line feeds give `n + 1` pieces, and `unpieces` puts
them together again. `lines` reads a text as a file: the last line may lack its line feed, and a
carriage return in front of a line feed belongs to the line end.
-/

namespace Scenarist.Text

/-- The pieces between line feeds. -/
def pieces : List Char → List (List Char)
  | [] => [[]]
  | c :: rest =>
    if c = '\n' then [] :: pieces rest
    else match pieces rest with
      | [] => [[c]]
      | piece :: more => (c :: piece) :: more

/-- The pieces joined by line feeds. -/
def unpieces : List (List Char) → List Char
  | [] => []
  | [piece] => piece
  | piece :: more => piece ++ '\n' :: unpieces more

/-- A line without the carriage return that ends it. -/
def dropReturn (line : List Char) : List Char :=
  if line.getLast? = some '\r' then line.dropLast else line

/-- The lines of a text: every terminated line without its line end, then what follows the last
line feed unless it is empty. -/
def lines (s : List Char) : List (List Char) :=
  let all := pieces s
  let last := all.getLast?.getD []
  all.dropLast.map dropReturn ++ if last.isEmpty then [] else [last]

theorem pieces_ne_nil (s : List Char) : pieces s ≠ [] := by
  cases s with
  | nil => simp [pieces]
  | cons c rest =>
    unfold pieces
    split
    · simp
    · split <;> simp

theorem unpieces_cons {piece : List Char} {more : List (List Char)} (h : more ≠ []) :
    unpieces (piece :: more) = piece ++ '\n' :: unpieces more := by
  cases more with
  | nil => exact absurd rfl h
  | cons => rfl

theorem unpieces_pieces (s : List Char) : unpieces (pieces s) = s := by
  induction s with
  | nil => rfl
  | cons c rest ih =>
    simp only [pieces]
    split
    · next h => rw [unpieces_cons (pieces_ne_nil rest), ih, h]; rfl
    · split
      · next h => exact absurd h (pieces_ne_nil rest)
      · next piece more h =>
        rw [h] at ih
        cases more with
        | nil => simp only [unpieces] at ih ⊢; rw [ih]
        | cons => simp only [unpieces, List.cons_append] at ih ⊢; rw [ih]

end Scenarist.Text
