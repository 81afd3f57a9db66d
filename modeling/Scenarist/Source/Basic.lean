import Scenarist.Document.Basic
import Scenarist.Source.Cells
import Scenarist.Source.Line

/-!
# Feature files line by line

What the lines of a file show by themselves: where things stand, headers, free text, rows, doc
strings, comments and tags. Lines are counted from one.
-/

namespace Scenarist

open Text Source

/-- The lines of a file and their kinds. -/
structure SourceText where
  lines : List (List Char)
  kinds : List LineKind

namespace SourceText

def ofLines (ls : List (List Char)) : SourceText := ⟨ls, kindsFrom none ls⟩

def ofText (s : List Char) : SourceText := ofLines (linesOf s)

def count (t : SourceText) : Nat := t.lines.length

def line? (t : SourceText) : Nat → Option (List Char)
  | 0 => none
  | n + 1 => t.lines[n]?

def kind? (t : SourceText) : Nat → Option LineKind
  | 0 => none
  | n + 1 => t.kinds[n]?

/-- A line; the empty text where there is none. -/
def lineAt (t : SourceText) (n : Nat) : List Char := (t.line? n).getD []

/-- The lines from `n` on, with their numbers. -/
def numbersFrom (t : SourceText) (n : Nat) : List Nat := List.range' n (t.count + 1 - n)

/-- Where the text of a line begins. -/
def startOf (t : SourceText) (n : Nat) : Location := ⟨n, (indentation (t.lineAt n)).length + 1⟩

/-- The language that a line before all content asks for, and the number of the line. -/
def languageFrom? (n : Nat) : List (List Char × LineKind) → Option (Nat × List Char)
  | (_, .blank) :: rest => languageFrom? (n + 1) rest
  | (line, .comment) :: rest =>
    match languageOf? line with
    | some name => some (n, name)
    | none => languageFrom? (n + 1) rest
  | _ => none

def language? (t : SourceText) : Option (Nat × List Char) := languageFrom? 1 (t.lines.zip t.kinds)

/-- The comment lines, less the one that asks for a language. -/
def comments (t : SourceText) : List Comment :=
  let directive := t.language?.map (·.1)
  (t.numbersFrom 1).filterMap fun n =>
    if t.kind? n = some .comment ∧ directive ≠ some n then
      some ⟨t.startOf n, String.ofList (t.lineAt n)⟩
    else none

/-- The first line from `n` on that may hold a header. -/
def headerLine (t : SourceText) (n : Nat) : Nat :=
  ((t.numbersFrom n).find? fun k => t.kind? k = some .other).getD n

/-- Whether a line is neither blank nor a comment. -/
def hasContent (t : SourceText) (n : Nat) : Bool :=
  match t.kind? n with
  | some .blank | some .comment | none => false
  | _ => true

/-- The last line up to `n` that is neither blank nor a comment. -/
def contentLine? (t : SourceText) (n : Nat) : Option Nat :=
  (List.range' 1 (min n t.count)).reverse.find? t.hasContent

/-- The keyword and the name of the header in a line. -/
def header (t : SourceText) (n : Nat) : String × String :=
  let line := trim (t.lineAt n)
  match splitColon? line with
  | some (keyword, name) => (String.ofList (trim keyword), String.ofList (trim name))
  | none => (String.ofList line, "")

/-- The lines of free text among lines that follow a header, up to a line that is part of the
structure. Blank lines in front do not count. -/
def textLines (t : SourceText) (structural : List Nat) : Bool → List Nat → List (List Char)
  | _, [] => []
  | begun, n :: rest =>
    if structural.contains n then []
    else match t.kind? n with
      | some .comment => t.textLines structural begun rest
      | some .blank =>
        if begun then trimEnd (t.lineAt n) :: t.textLines structural begun rest
        else t.textLines structural begun rest
      | some .other => trimEnd (t.lineAt n) :: t.textLines structural true rest
      | _ => []

/-- The free text that follows the header in line `n`. -/
def description (t : SourceText) (structural : List Nat) (n : Nat) : String :=
  let ls := t.textLines structural false (t.numbersFrom (n + 1))
  String.ofList (unpieces (ls.reverse.dropWhile List.isEmpty).reverse)

/-- The table rows among lines, up to one that is no row and holds content. -/
def rowLines (t : SourceText) : List Nat → List Nat
  | [] => []
  | n :: rest =>
    match t.kind? n with
    | some .row => n :: t.rowLines rest
    | some .blank | some .comment => t.rowLines rest
    | _ => []

/-- The table rows that follow line `n`. -/
def rowsAfter (t : SourceText) (n : Nat) : List Nat := t.rowLines (t.numbersFrom (n + 1))

/-- The place, the delimiter and the media type of the doc string that follows line `n`. -/
def docStringAfter? (t : SourceText) (n : Nat) : Option (Location × String × Option String) := do
  let k ← (t.numbersFrom (n + 1)).find? fun k =>
    match t.kind? k with
    | some .blank | some .comment | some .row => false
    | _ => true
  if t.kind? k = some .docString then
    let line := trim (t.lineAt k)
    let d ← delimiter? line
    let media := trim (line.drop d.length)
    some (t.startOf k, String.ofList d,
      if media.isEmpty then none else some (String.ofList media))
  else none

/-- The cells of a line with their columns. -/
def cells (t : SourceText) (n : Nat) : List (Nat × String) :=
  (cellsOf (t.lineAt n)).map fun (column, value) => (column, String.ofList value)

/-- The tag lines above the line that `n` stands for, going up. -/
def tagLinesAbove (t : SourceText) : Nat → List Nat
  | 0 => []
  | n + 1 =>
    match t.kind? n with
    | some .tag => n :: t.tagLinesAbove n
    | some .blank | some .comment => t.tagLinesAbove n
    | _ => []

/-- The tags above the header in line `n`, from top to bottom. -/
def tagsBefore (t : SourceText) (n : Nat) : List (Location × String) :=
  (t.tagLinesAbove n).reverse.flatMap fun k =>
    (tagsOf (t.lineAt k)).map fun (column, name) => (⟨k, column⟩, String.ofList name)

end SourceText

end Scenarist
