import Scenarist.Gherkin.Phrase
import Scenarist.Text.Blank
import Scenarist.Text.Margin

/-!
# The grammar of feature files

`readFeature` reads a whole text or says how far it could be read.
-/

namespace Scenarist.Gherkin

open Phrase

/-! ## Blanks, lines and comments -/

def spaceOrTab : Phrase Unit := do
  let _ ← char Text.isSpaceOrTab

def blanks : Phrase Unit := quiet do
  let _ ← many spaceOrTab

/-- A line end. -/
def lineEnd : Phrase Unit := quiet do
  let _ ← optional (literal "\r")
  literal "\n"

/-- The text up to the next line end. -/
def untilLineEnd : List Char → List Char
  | [] => []
  | '\n' :: _ => []
  | '\r' :: '\n' :: _ => []
  | c :: rest => c :: untilLineEnd rest

/-- A comment without its line end. -/
def commentText : Phrase Unit := quiet do
  let _ ← many spaceOrTab
  literal "#"
  advance (untilLineEnd (← here).rest).length

/-- The end of a line that is counted, with a comment in front of it. -/
def newLine : Phrase Unit := quiet do
  let _ ← optional commentText
  lineEnd
  fun c m => (some ((), { c with line := c.line + 1 }), m)

def newLines : Phrase Unit := do
  let _ ← many newLine

/-- Blanks and line ends. -/
def space : Phrase Unit := quiet do
  let _ ← many (spaceOrTab <|> newLine)

def textEnd : Phrase Unit := quiet (absent anyChar)

/-- The end of a line and all blank lines and comments after it. -/
def lineBreak : Phrase Unit := quiet ((do
  let _ ← atLeastOnce (newLine <|> spaceOrTab)) <|> textEnd)

def comments : Phrase Unit := quiet do
  let _ ← many (do
    commentText
    lineBreak)

/-- The rest of a line, if there is any. -/
def restOfLine : Phrase (List Char) := do
  let found := untilLineEnd (← here).rest
  advance found.length
  if (← here).rest.isEmpty then note 0
  if found.isEmpty then fail else pure found

/-! ## Keywords -/

/-- The first of some words that stands here. The words are compared with as many characters as the
longest of them has, so that is where something else is expected. -/
def word (words : List String) : Phrase String := do
  let lengths := words.map String.length
  let ahead := (← here).rest.take (lengths.max?.getD 0)
  note ahead.length
  if ahead.length < lengths.min?.getD 0 then fail
  else match words.find? fun w => w.toList.isPrefixOf ahead with
    | none => fail
    | some w => do
      advance w.length
      pure w

/-- A keyword behind comments. -/
def keyword (words : Dialect → List String) : Phrase String := do
  comments
  word (words (← memory).dialect)

def directive : Phrase Unit := do
  let _ ← many (spaceOrTab <|> lineEnd)
  literal "#"
  blanks
  literal "language"
  blanks
  literal ":"
  blanks
  let name ← restOfLine
  blanks
  newLine
  match Dialect.ofName? (String.ofList name) with
  | some d => remember fun m => { m with dialect := d }
  | none => do
    remember fun m => { m with spoiled := true }
    miss

/-! ## Step arguments -/

/-- A doc string between two delimiters. -/
def docStringWith (delimiter : String) : Phrase (List Char) := do
  literal delimiter
  let start ← here
  let _ ← many (do
    absent (literal delimiter)
    newLine <|> (do let _ ← anyChar))
  let stop ← here
  literal delimiter
  lineBreak
  pure (Text.outdent (start.rest.take (stop.index - start.index)))

def docString : Phrase (List Char) := docStringWith "\"\"\"" <|> docStringWith "```"

def tableCell : Phrase String := do
  literal "|"
  blanks
  absent (lineEnd <|> textEnd)
  let cs ← many (do
    absent (literal "|" <|> lineEnd)
    anyChar)
  pure (String.ofList (Text.trim cs))

def tableRow : Phrase (List String) := do
  let cells ← list tableCell blanks
  blanks
  literal "|"
  blanks
  lineBreak
  pure cells

/-- A table. Rows are cut to the length of the first one; a shorter row spoils the text. -/
def table : Phrase (List (List String)) := do
  blanks
  let rows ← joined tableRow blanks
  let width := (rows.head?.map List.length).getD 0
  if rows.any fun r => r.length < width then
    remember fun m => { m with spoiled := true }
    miss
  else pure (rows.map fun r => r.take width)

/-! ## Steps -/

/-- The type of a step of a kind, if it has one; a conjunction has that of the step before it. -/
def stepType (k : StepKeyword) : Phrase (Option StepType) := do
  let own : Option StepType := match k with
    | .given => some .given
    | .when_ => some .when_
    | .then_ => some .then_
    | .and | .but => none
  match own with
  | some t => do
    remember fun m => { m with lastType := some t }
    pure (some t)
  | none => do pure (← memory).lastType

/-- A step that begins with a keyword of a kind. -/
def stepOf (k : StepKeyword) : Phrase Step := do
  let line := (← here).line
  let word ← keyword (·.stepWords k)
  blanks
  let value ← restOfLine
  blanks
  lineBreak
  blanks
  let docString ← optional docString
  let table ← optional table
  match ← stepType k with
  | some type => pure ⟨line, word, type, String.ofList (Text.trimEnd value), docString, table⟩
  | none => miss

def step : Phrase Step :=
  (do comments; stepOf .given) <|> stepOf .when_ <|> stepOf .then_ <|> stepOf .and <|> stepOf .but

def steps : Phrase (List Step) := do
  let found ← list step blanks
  remember fun m => { m with lastType := none }
  pure found

/-! ## Blocks -/

/-- Free text up to a line that begins with a tag or one of some words. -/
def description (words : Dialect → List String) : Phrase Unit := do
  let _ ← list (do
    blanks
    absent (literal "@")
    absent (keyword words)
    blanks
    let _ ← restOfLine
    lineBreak) blanks
  space

def stepWords (d : Dialect) : List String := d.given ++ d.when_ ++ d.then_ ++ d.and ++ d.but

def scenarioWords (d : Dialect) : List String := d.scenario ++ d.scenarioOutline

def tagChar : Phrase Char := do
  let c ← anyChar
  ensure (!Text.isBlank c && c != '@')
  pure c

def tag : Phrase String := do
  literal "@"
  let cs ← atLeastOnce tagChar
  pure (String.ofList cs)

def tags : Phrase (List String) := do
  let found ← list tag space
  blanks
  newLines
  pure found

/-- A header: a keyword, a colon and a name, then free text. Gives the line of the keyword. -/
def header (words ends : Dialect → List String) : Phrase Nat := do
  let line := (← here).line
  let _ ← keyword words
  literal ":"
  blanks
  let _ ← optional restOfLine
  blanks
  lineBreak
  let _ ← optional (description ends)
  pure line

def background : Phrase Background := do
  comments
  blanks
  let line ← header (·.background) fun d => scenarioWords d ++ stepWords d
  let steps ← optional steps
  pure ⟨line, steps.getD []⟩

def examples : Phrase Examples := do
  comments
  blanks
  let tags ← tags
  blanks
  let line ← header (·.examples) fun d => scenarioWords d ++ stepWords d ++ ["|"]
  let table ← optional table
  pure ⟨line, tags, table⟩

/-- A scenario that begins with one of some words. -/
def scenarioOf (words : Dialect → List String) : Phrase Scenario := do
  comments
  blanks
  let tags ← tags
  blanks
  let line ← header words fun d => scenarioWords d ++ stepWords d
  let steps ← optional steps
  let examples ← many examples
  pure ⟨line, tags, steps.getD [], examples⟩

def scenario : Phrase Scenario := scenarioOf (·.scenario) <|> scenarioOf (·.scenarioOutline)

def scenarios : Phrase (List Scenario) := do
  blanks
  list scenario blanks

def rule : Phrase Rule := do
  blanks
  let tags ← tags
  blanks
  let line ← header (·.rule) fun d => d.background ++ scenarioWords d
  let background ← optional background
  newLines
  let scenarios ← scenarios
  newLines
  pure ⟨line, tags, background, scenarios⟩

def feature : Phrase Feature := do
  blanks
  let _ ← optional directive
  newLines
  let tags ← tags
  let line ← header (·.feature) fun d => d.background ++ d.rule ++ scenarioWords d
  let background ← optional background
  newLines
  let scenarios ← scenarios
  newLines
  blanks
  let rules ← list rule blanks
  newLines
  textEnd
  ensure !(← memory).spoiled
  pure ⟨line, tags, background, scenarios, rules⟩

/-- Reads a whole text; otherwise gives the index of the furthest character that does not fit. -/
def readFeature (d : Dialect) (s : List Char) : Except Nat Feature :=
  match feature ⟨0, 1, s⟩ ⟨0, d, none, false⟩ with
  | (some (f, _), _) => .ok f
  | (none, m) => .error m.furthest

end Scenarist.Gherkin
