import Scenarist.Text.Blank
import Scenarist.Text.Lines

/-!
# Lines of feature files

The kind of a line shows in its first characters, except inside a doc string, which runs from a line
that begins with a delimiter to the next one that begins with the same delimiter.
-/

namespace Scenarist.Source

open Text

/-- What a line is, as far as its first characters show. -/
inductive LineKind
  | blank | comment | tag | row | docString | other
  deriving DecidableEq, Repr

/-- The delimiters of doc strings. -/
def delimiters : List (List Char) := ["\"\"\"".toList, "```".toList]

/-- The delimiter that a text begins with. -/
def delimiter? (s : List Char) : Option (List Char) := delimiters.find? fun d => d.isPrefixOf s

/-- The kind of a line outside of doc strings. -/
def plainKind (s : List Char) : LineKind :=
  match s with
  | [] => .blank
  | '#' :: _ => .comment
  | '@' :: _ => .tag
  | '|' :: _ => .row
  | _ => .other

/-- The kinds of lines behind an open doc string with the given delimiter, or outside of one. -/
def kindsFrom : Option (List Char) → List (List Char) → List LineKind
  | _, [] => []
  | some d, line :: rest =>
    .docString :: kindsFrom (if d.isPrefixOf (trimStart line) then none else some d) rest
  | none, line :: rest =>
    match delimiter? (trimStart line) with
    | some d => .docString :: kindsFrom (some d) rest
    | none => plainKind (trimStart line) :: kindsFrom none rest

/-- The lines of a text, without carriage returns at their ends. -/
def linesOf (s : List Char) : List (List Char) := (lines s).map dropReturn

/-- The text around the first colon. -/
def splitColon? (s : List Char) : Option (List Char × List Char) :=
  match s.dropWhile (· != ':') with
  | [] => none
  | _ :: after => some (s.takeWhile (· != ':'), after)

/-- The language that a line asks for. -/
def languageOf? (line : List Char) : Option (List Char) :=
  match trimStart line with
  | '#' :: rest =>
    let rest := trimStart rest
    let word := "language".toList
    if word.isPrefixOf rest then
      match trimStart (rest.drop word.length) with
      | ':' :: rest =>
        let name := trim rest
        if !name.isEmpty && name.all fun c => c.isAlphanum || c == '_' || c == '-' then some name
        else none
      | _ => none
    else none
  | _ => none

end Scenarist.Source
