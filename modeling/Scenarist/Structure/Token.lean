import Scenarist.Source.Basic

/-!
# Block tokens

What a line of an English feature file means for the order of blocks.
-/

namespace Scenarist.Structure

open Text Source

/-- What a line is part of. -/
inductive Token
  | feature | background | rule | scenario | examples
  | step | row | docString | tag | text | eof
  deriving DecidableEq, Repr

def stepWords : List String := ["Given", "When", "Then", "And", "But", "*"]

/-- The words that begin a block. -/
def headers : List (String × Token) := [
  ("Feature", .feature),
  ("Business Need", .feature),
  ("Ability", .feature),
  ("Background", .background),
  ("Rule", .rule),
  ("Scenario", .scenario),
  ("Example", .scenario),
  ("Scenario Outline", .scenario),
  ("Scenario Template", .scenario),
  ("Examples", .examples),
  ("Scenarios", .examples)]

/-- Whether a text begins with a step keyword and a blank, or is one. -/
def isStep (s : List Char) : Bool :=
  stepWords.any fun w =>
    w.toList.isPrefixOf s && (s.drop w.length).head?.all isBlank

/-- The token of a line that is no tag, row, comment or part of a doc string. -/
def plainToken (line : List Char) : Token :=
  let s := trim line
  if isStep s then .step
  else match splitColon? s with
    | none => .text
    | some (word, _) =>
      match headers.find? fun h => h.1 = String.ofList (trimEnd word) with
      | some (_, token) => token
      | none => .text

/-- The token of a line of a kind; blank lines and comments have none. -/
def token? (kind : LineKind) (line : List Char) : Option Token :=
  match kind with
  | .blank | .comment => none
  | .tag => some .tag
  | .row => some .row
  | .docString => some .docString
  | .other => some (plainToken line)

/-- What may be expected at a line. -/
inductive TokenClass
  | eof | empty | comment | language | tagLine
  | featureLine | backgroundLine | ruleLine | scenarioLine | examplesLine
  | stepLine | tableRow | docStringSeparator | other
  deriving DecidableEq, Repr

def TokenClass.label : TokenClass → String
  | eof => "#EOF"
  | empty => "#Empty"
  | comment => "#Comment"
  | language => "#Language"
  | tagLine => "#TagLine"
  | featureLine => "#FeatureLine"
  | backgroundLine => "#BackgroundLine"
  | ruleLine => "#RuleLine"
  | scenarioLine => "#ScenarioLine"
  | examplesLine => "#ExamplesLine"
  | stepLine => "#StepLine"
  | tableRow => "#TableRow"
  | docStringSeparator => "#DocStringSeparator"
  | other => "#Other"

/-- The class of a token. -/
def Token.toClass : Token → TokenClass
  | feature => .featureLine
  | background => .backgroundLine
  | rule => .ruleLine
  | scenario => .scenarioLine
  | examples => .examplesLine
  | step => .stepLine
  | row => .tableRow
  | docString => .docStringSeparator
  | tag => .tagLine
  | text => .other
  | eof => .eof

end Scenarist.Structure
