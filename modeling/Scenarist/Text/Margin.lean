import Scenarist.Text.Blank
import Scenarist.Text.Lines

/-!
# Margins

The margin of a text is the longest run of leading blanks that its lines share. `dedent` removes it:
lines that hold only blanks do not count for the margin and come out empty. `outdent` is the looser
reading of a margin used for the text between doc string delimiters: every later line, blank or not,
shortens the margin where it differs from it.
-/

namespace Scenarist.Text

/-- The longest common beginning of two texts. -/
def commonStart : List Char → List Char → List Char
  | a :: as, b :: bs => if a = b then a :: commonStart as bs else []
  | _, _ => []

/-- The indentation that all lines with content share. -/
def margin (ls : List (List Char)) : List Char :=
  match (ls.filter fun l => !allBlank l).map indentation with
  | [] => []
  | first :: others => others.foldl commonStart first

/-- A line less the margin; a line that does not begin with it is left as it is. -/
def cutMargin (m line : List Char) : List Char :=
  if m.isPrefixOf line then line.drop m.length else line

/-- Removes the margin of a text and empties its blank lines. -/
def dedent (s : List Char) : List Char :=
  let ls := pieces s
  let m := margin ls
  unpieces (ls.map fun l => if allBlank l then [] else cutMargin m l)

/-- The margin `m` cut at the first character in which `line` differs from it. -/
def narrow (m line : List Char) : List Char :=
  let shared := commonStart m line
  if shared.length < line.length then shared else m

/-- The margin of the first line with content, narrowed by every line after it. -/
def looseMargin : List (List Char) → List Char
  | [] => []
  | l :: rest => if allBlank l then looseMargin rest else rest.foldl narrow (indentation l)

/-- Removes the loose margin; lines without content and lines that do not begin with the margin come
out empty. -/
def outdent (s : List Char) : List Char :=
  let ls := lines s
  let m := looseMargin ls
  let out := ls.flatMap fun l =>
    (if m.isPrefixOf l && !allBlank l then l.drop m.length else []) ++ ['\n']
  if s.getLast? = some '\n' then out else out.dropLast

end Scenarist.Text
