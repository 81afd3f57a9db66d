import Scenarist.Diagnostic.Kind
import Scenarist.Document.Basic
import Scenarist.Number.Integer
import Scenarist.Text.Blank
import Scenarist.Unicode.DecimalDigit

/-!
# Reports of a grammar

A grammar says in words where it stopped and what it expected there. `place?` and `expectation` take
both out of its report.
-/

namespace Scenarist.Diagnostic

open Text

/-- The first two runs of digits with a colon between them. -/
def numbers? : List Char → Option (List Char × List Char)
  | [] => none
  | c :: rest =>
    let first := (c :: rest).takeWhile Unicode.isDecimalDigit
    match (c :: rest).dropWhile Unicode.isDecimalDigit with
    | ':' :: after =>
      let second := after.takeWhile Unicode.isDecimalDigit
      if first.isEmpty || second.isEmpty then numbers? rest else some (first, second)
    | _ => numbers? rest

/-- The number that digits stand for, unless it is too large or not written in ASCII. -/
def count? (digits : List Char) : Option Nat :=
  match Number.IntType.usize.read digits with
  | .ok n => some n.toNat
  | .error _ => none

/-- The line and the column that a report names. -/
def place? (report : String) : Option Location :=
  match numbers? report.toList with
  | none => none
  | some (line, column) =>
    match count? line, count? column with
    | some line, some column => some ⟨line, column⟩
    | _, _ => none

/-- What a report says that it expected; the whole report where it does not say so. -/
def expectation (report : String) : String :=
  let found := match after? "expected".toList report.toList with
    | some rest =>
      let rest := if rest.head? = some ':' then rest.tail else rest
      (trimStart rest).takeWhile (· != '\n')
    | none => report.toList
  String.ofList (trim found)

end Scenarist.Diagnostic
