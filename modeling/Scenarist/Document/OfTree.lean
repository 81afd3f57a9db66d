import Scenarist.Document.Basic
import Scenarist.Gherkin.Tree
import Scenarist.Source.Basic

/-!
# Documents from feature trees

The tree of a grammar gives the order of nodes, and the lines of the file give their places, names
and texts. Identifiers are numbers, given out when a node is complete: to rows before their step, to
steps and examples before their scenario, to tags right before what they belong to.
-/

namespace Scenarist

open Text

/-- Gives out identifiers. -/
abbrev IdSupply := StateM Nat

namespace IdSupply

/-- The next identifier. -/
def fresh : IdSupply String := fun n => (toString n, n + 1)

end IdSupply

open IdSupply

/-- Keywords seen among the steps of a block: the type of the last step, and for each type the
keyword that introduced it. -/
structure StepBlock where
  previous : Option Gherkin.StepType
  introducedBy : List (Gherkin.StepType × String)

namespace StepBlock

def start : StepBlock := ⟨none, []⟩

def primary : Gherkin.StepType → KeywordType
  | .given => .context
  | .when_ => .action
  | .then_ => .outcome

/-- The meaning of a keyword. A keyword of another language that repeats the type of the step before
it with another word than the one that introduced the type is a conjunction. -/
def keywordType (b : StepBlock) (keyword : String) (type : Gherkin.StepType) :
    KeywordType × StepBlock :=
  let continues := b.previous == some type
  let known := (b.introducedBy.find? fun k => k.1 = type).map (·.2)
  let conjunction := match keyword with
    | "*" | "And" | "But" => true
    | "Given" | "When" | "Then" => false
    | _ => continues && known.any (· != keyword)
  if conjunction then (.conjunction, { b with previous := some type })
  else (primary type,
    ⟨some type, (b.introducedBy.filter fun k => k.1 != type) ++ [(type, keyword)]⟩)

end StepBlock

namespace Gherkin

/-- The lines of a background that are part of the structure. -/
def Background.lines (t : SourceText) (b : Background) : List Nat :=
  t.headerLine b.line :: b.steps.map (·.line)

def Scenario.lines (t : SourceText) (s : Scenario) : List Nat :=
  t.headerLine s.line :: (s.steps.map (·.line) ++ s.examples.map fun e => t.headerLine e.line)

def Rule.lines (t : SourceText) (r : Rule) : List Nat :=
  t.headerLine r.line ::
    ((r.background.map (Background.lines t)).getD [] ++ r.scenarios.flatMap (Scenario.lines t))

/-- The lines that hold a header or a step. -/
def Feature.lines (t : SourceText) (f : Feature) : List Nat :=
  t.headerLine f.line ::
    ((f.background.map (Background.lines t)).getD [] ++ f.scenarios.flatMap (Scenario.lines t) ++
      f.rules.flatMap (Rule.lines t))

end Gherkin

/-- The content of a doc string: the text between the delimiters without the line breaks around
it. -/
def docStringBody (s : List Char) : List Char :=
  let body := match s with
    | '\n' :: rest => rest
    | s => s
  let ls := pieces body
  if 1 < ls.length && allBlank (ls.getLast?.getD []) then unpieces ls.dropLast else body

/-- What a document is built from: the lines of the file and those that are part of the
structure. -/
structure Sheet where
  text : SourceText
  structural : List Nat

namespace Sheet

variable (s : Sheet)

/-- The line, the keyword, the name and the free text of a header at or after a line. -/
def header (line : Nat) : Nat × String × String × String :=
  let n := s.text.headerLine line
  let (keyword, name) := s.text.header n
  (n, keyword, name, s.text.description s.structural n)

/-- A row. The cells are those of the line, unless it has none. -/
def row (line : Option Nat) (fallback : Location) (values : List String) : IdSupply Row := do
  let location := (line.map s.text.startOf).getD fallback
  let scanned := (line.map s.text.cells).getD []
  let cells := if scanned.isEmpty then values.map fun v => (location.column, v) else scanned
  let id ← fresh
  return {
    id
    location
    cells := cells.map fun (column, value) => ⟨⟨location.line, column⟩, value⟩ }

/-- Rows in the given lines, as far as there are lines. -/
def rows (lines : List Nat) (fallback : Location) (table : List (List String)) :
    IdSupply (List Row) :=
  table.zipIdx.mapM fun (values, i) => s.row lines[i]? fallback values

/-- The places of tags: each takes the first one of its name that is left. -/
def tagPlaces (fallback : Location) : List (Location × String) → List String → List Location
  | _, [] => []
  | found, name :: names =>
    match found.find? fun t => t.2 = name with
    | some t => t.1 :: tagPlaces fallback (found.eraseP fun t => t.2 = name) names
    | none => fallback :: tagPlaces fallback found names

/-- The tags above the header in line `n`. -/
def tags (n : Nat) (names : List String) : IdSupply (List Tag) :=
  let signed := names.map fun name => if "@".isPrefixOf name then name else "@" ++ name
  let places := tagPlaces ⟨max (n - 1) 1, 1⟩ (s.text.tagsBefore n) signed
  (places.zip signed).mapM fun (location, name) => do
    let id ← fresh
    return { id, location, name }

/-- The table of a step. -/
def dataTable (line : Nat) (table : List (List String)) : IdSupply DataTable := do
  let lines := s.text.rowsAfter line
  let fallback : Location := ⟨line + 1, 1⟩
  let rows ← s.rows lines fallback table
  return { location := (lines.head?.map s.text.startOf).getD fallback, rows }

/-- The doc string of a step. -/
def docString (line : Nat) (content : List Char) : DocString :=
  let (location, delimiter, mediaType) :=
    (s.text.docStringAfter? line).getD (⟨line + 1, 1⟩, "\"\"\"", none)
  { location, content := String.ofList (docStringBody content), delimiter, mediaType }

/-- A step with a keyword of the given meaning. -/
def step (n : Gherkin.Step) (keyword : String) (keywordType : KeywordType) : IdSupply Step := do
  let dataTable ← n.table.mapM (s.dataTable n.line)
  let id ← fresh
  return {
    id
    location := s.text.startOf n.line
    keyword
    keywordType
    text := String.ofList (trimEnd n.value.toList)
    dataTable
    docString := n.docString.map (s.docString n.line) }

/-- The steps of a block. -/
def steps (b : StepBlock) : List Gherkin.Step → IdSupply (List Step)
  | [] => pure []
  | n :: rest => do
    let keyword := String.ofList (trim n.keyword.toList)
    let (keywordType, b) := b.keywordType keyword n.type
    let first ← s.step n keyword keywordType
    let others ← steps b rest
    return first :: others

def background (n : Gherkin.Background) : IdSupply Background := do
  let (line, keyword, name, description) := s.header n.line
  let steps ← s.steps .start n.steps
  let id ← fresh
  return { id, location := s.text.startOf line, keyword, name, description, steps }

/-- The lines of the rows of examples below the header in line `n`. -/
def exampleLines (n : Nat) : List Nat :=
  let below := (s.text.numbersFrom (n + 1)).takeWhile fun k => !s.structural.contains k
  match below.find? fun k => s.text.kind? k = some .row with
  | none => []
  | some first => first :: s.text.rowsAfter first

def examples (n : Gherkin.Examples) : IdSupply ExamplesTable := do
  let (line, keyword, name, description) := s.header n.line
  let rows ← s.rows (s.exampleLines line) ⟨line + 1, 1⟩ (n.table.getD [])
  let tags ← s.tags line n.tags
  let id ← fresh
  return {
    id
    location := s.text.startOf line
    tags
    keyword
    name := if name.isEmpty then none else some name
    description
    tableHeader := rows.head?
    tableBody := rows.tail }

def scenario (n : Gherkin.Scenario) : IdSupply Scenario := do
  let (line, keyword, name, description) := s.header n.line
  let steps ← s.steps .start n.steps
  let examples ← n.examples.mapM s.examples
  let tags ← s.tags line n.tags
  let id ← fresh
  return { id, location := s.text.startOf line, tags, keyword, name, description, steps, examples }

/-- The nodes of a rule in order: scenarios that stand before its background, the background, and
the other scenarios. -/
def ruleNodes (n : Gherkin.Rule) : List (Gherkin.Background ⊕ Gherkin.Scenario) :=
  match n.background with
  | none => n.scenarios.map .inr
  | some b =>
    let early := fun (c : Gherkin.Scenario) => decide (c.line < b.line)
    (n.scenarios.takeWhile early).map .inr ++ .inl b :: (n.scenarios.dropWhile early).map .inr

def rule (n : Gherkin.Rule) : IdSupply Rule := do
  let (line, keyword, name, description) := s.header n.line
  let children ← (ruleNodes n).mapM fun
    | .inl b => RuleChild.background <$> s.background b
    | .inr c => RuleChild.scenario <$> s.scenario c
  let tags ← s.tags line n.tags
  let id ← fresh
  return { id, location := s.text.startOf line, tags, keyword, name, description, children }

/-- The nodes directly under a feature. -/
inductive Node
  | background (n : Gherkin.Background)
  | scenario (n : Gherkin.Scenario)
  | rule (n : Gherkin.Rule)

def Node.line : Node → Nat
  | background n => n.line
  | scenario n => n.line
  | rule n => n.line

/-- The nodes directly under a feature in the order of their lines. -/
def featureNodes (f : Gherkin.Feature) : List Node :=
  ((f.background.map Node.background).toList ++ f.scenarios.map Node.scenario ++
    f.rules.map Node.rule).mergeSort fun a b => a.line ≤ b.line

def child : Node → IdSupply FeatureChild
  | .background n => FeatureChild.background <$> s.background n
  | .scenario n => FeatureChild.scenario <$> s.scenario n
  | .rule n => FeatureChild.rule <$> s.rule n

def feature (language : String) (f : Gherkin.Feature) : IdSupply Feature := do
  let (line, keyword, name, description) := s.header f.line
  let children ← (featureNodes f).mapM s.child
  let tags ← s.tags line f.tags
  return { location := s.text.startOf line, tags, language, keyword, name, description, children }

end Sheet

/-- The document of a feature tree, with identifiers from zero on. -/
def Document.ofTree (t : SourceText) (language : String) (f : Gherkin.Feature) : Document :=
  let s : Sheet := ⟨t, f.lines t⟩
  { feature := ((s.feature language f).run 0).1, comments := t.comments }

end Scenarist
