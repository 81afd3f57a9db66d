import Scenarist.Format.Hint
import Scenarist.Format.Token
import Scenarist.Regex.Reader

/-!
# Format patterns

`FormatPattern.compile` writes a pattern as an expression for the whole text with one group a field,
and reads that expression. Braces that stand alone are text as long as they balance. Fields without a
name are numbered from zero.
-/

namespace Scenarist

/-- A field of a pattern. -/
structure PatternField where
  name : String
  hint : Option String
  /-- Whether the name is a number given in order. -/
  positional : Bool
  deriving DecidableEq, Repr

/-- A field with the text that it captured. -/
structure CapturedField where
  name : String
  hint : Option String
  value : String
  deriving DecidableEq, Repr

namespace Format

/-- A part of the expression of a pattern. -/
inductive Part
  | text (s : List Char)
  | field (f : PatternField)
  deriving DecidableEq, Repr

/-- The parts read so far, in reverse, the number of fields without a name, and how many braces are
open. -/
structure Assembly where
  parts : List Part
  positional : Nat
  depth : Nat

namespace Assembly

def start : Assembly := ⟨[], 0, 0⟩

def addText (a : Assembly) (s : List Char) : Assembly := { a with parts := .text s :: a.parts }

def hasName (a : Assembly) (name : String) : Bool :=
  a.parts.any fun
    | .field f => !f.positional && f.name == name
    | .text _ => false

/-- Adds one token. -/
def add (a : Assembly) (t : Token) : Except PatternFault Assembly :=
  match t.kind with
  | .literal text => .ok (a.addText text)
  | .field (some name) hint =>
    if a.hasName name then .error (.placeholder .duplicate t.start (some name))
    else .ok { a with parts := .field ⟨name, hint, false⟩ :: a.parts }
  | .field none hint =>
    .ok { a with
      parts := .field ⟨toString a.positional, hint, true⟩ :: a.parts
      positional := a.positional + 1 }
  | .openBrace => .ok { a.addText ['\x7b'] with depth := a.depth + 1 }
  | .closeBrace =>
    match a.depth with
    | 0 => .error (.placeholder .unmatchedClose t.start none)
    | depth + 1 => .ok { a.addText ['\x7d'] with depth := depth }

end Assembly

/-- The parts of a pattern in order. -/
def parts (s : List Char) : Except PatternFault (List Part) := do
  let a ← (← tokens s).foldlM Assembly.add .start
  if a.depth ≠ 0 then .error (.placeholder .unbalanced (bytes s) none) else .ok a.parts.reverse

/-- The written expression of a part. -/
def Part.source : Part → List Char
  | .text s => Regex.escape s
  | .field f => '(' :: ((Hint.kind f.hint).fragment.toList ++ [')'])

/-- The written expression of a whole pattern. -/
def source (ps : List Part) : List Char := '^' :: (ps.flatMap Part.source ++ ['$'])

/-- The fields among parts. -/
def fields (ps : List Part) : List PatternField :=
  ps.filterMap fun
    | .field f => some f
    | .text _ => none

end Format

/-- The written expression that a pattern stands for. -/
def buildRegex (pattern : List Char) : Except PatternFault (List Char) :=
  Format.source <$> Format.parts pattern

/-- A compiled pattern. -/
structure FormatPattern where
  source : String
  parts : List Format.Part
  /-- What the written expression of the parts reads as. -/
  expression : Expression
  deriving DecidableEq, Repr

namespace FormatPattern

def fields (p : FormatPattern) : List PatternField := Format.fields p.parts

/-- The expression that a pattern stands for, as it is written. -/
def regexSource (p : FormatPattern) : String := String.ofList (Format.source p.parts)

/-- Compiles a pattern. -/
def compile (source : String) : Except PatternFault FormatPattern := do
  let parts ← Format.parts source.toList
  let expression ← (Expression.read (Format.source parts)).mapError .regex
  return ⟨source, parts, expression⟩

/-- The fields with the texts that they capture from a text, if the pattern matches it; a group that
remembers nothing gives the empty text. -/
def captures (p : FormatPattern) (text : List Char) : Option (List CapturedField) :=
  (p.expression.captures text).map fun values =>
    (p.fields.zip values).map fun (f, value) =>
      ⟨f.name, f.hint, String.ofList (value.getD [])⟩

end FormatPattern

end Scenarist
