import Scenarist.Json.Printer
import Scenarist.Json.Reader
import Scenarist.Json.Record

/-!
# Dumped values

Values are written into a program's output one a line between two markers, and found again among
whatever else the output holds.
-/

namespace Scenarist.Dump

def startMarker : List Char := "_featureflow_>>>".toList

def endMarker : List Char := "<<<_featureflow_".toList

/-- The line that holds a value. -/
def line (j : Json) : List Char := startMarker ++ j.renderChars ++ endMarker ++ ['\n']

/-- The lines that hold values. -/
def write (values : List Json) : List Char := values.flatMap line

/-- What stands before the next end marker in the same line, and what follows the marker. -/
def payload : List Char → Option (List Char × List Char)
  | [] => none
  | c :: rest =>
    if endMarker.isPrefixOf (c :: rest) then some ([], (c :: rest).drop endMarker.length)
    else if c = '\n' then none
    else (payload rest).map fun (found, after) => (c :: found, after)

/-- The texts between markers; `n` bounds the number of characters. -/
def payloadsWithin : Nat → List Char → List (List Char)
  | 0, _ => []
  | _, [] => []
  | n + 1, c :: rest =>
    if startMarker.isPrefixOf (c :: rest) then
      match payload ((c :: rest).drop startMarker.length) with
      | some (found, after) => found :: payloadsWithin n after
      | none => payloadsWithin n rest
    else payloadsWithin n rest

/-- The texts between markers, in order. -/
def payloads (output : List Char) : List (List Char) := payloadsWithin output.length output

/-- Loads a value from a text that holds nothing else. -/
def loadText {α : Type} (load : Loader α) (s : List Char) : Except LoadFault α := do
  let (d, trailing) := Draft.read s
  let a ← load d
  if trailing then .error (.text .misplaced) else .ok a

/-- Loads any value. -/
def anyValue : Loader Json := fun d => d.value.mapError .text

/-- The values dumped among an output. -/
def collect {α : Type} (load : Loader α) (output : List Char) : Except LoadFault (List α) :=
  (payloads output).mapM (loadText load)

end Scenarist.Dump
