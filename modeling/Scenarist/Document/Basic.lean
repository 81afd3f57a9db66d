/-!
# Feature documents

The tree of a feature file: a feature with backgrounds, rules and scenarios, their steps, and the
tables and doc strings of steps. Every node knows where it stands, and most have an identifier.
-/

namespace Scenarist

/-- A line and a column, both counted from one. -/
structure Location where
  line : Nat
  column : Nat
  deriving DecidableEq, Repr

/-- A comment line. -/
structure Comment where
  location : Location
  text : String
  deriving DecidableEq, Repr

structure Tag where
  id : String
  location : Location
  /-- The name as written, with its sign. -/
  name : String
  deriving DecidableEq, Repr

/-- The name without its sign. -/
def Tag.label (t : Tag) : String :=
  match t.name.toList with
  | '@' :: rest => String.ofList rest
  | _ => t.name

/-- What the keyword of a step means. -/
inductive KeywordType
  | context | action | outcome | conjunction | unknown
  deriving DecidableEq, Repr

/-- A table cell, its value in raw form. -/
structure Cell where
  location : Location
  value : String
  deriving DecidableEq, Repr

structure Row where
  id : String
  location : Location
  cells : List Cell
  deriving DecidableEq, Repr

/-- The cell values of a row. -/
def Row.values (r : Row) : List String := r.cells.map (·.value)

structure DataTable where
  location : Location
  rows : List Row
  deriving DecidableEq, Repr

structure DocString where
  location : Location
  /-- The content without its margin. -/
  content : String
  delimiter : String
  mediaType : Option String
  deriving DecidableEq, Repr

structure Step where
  id : String
  location : Location
  /-- The keyword as written, without blanks around it. -/
  keyword : String
  keywordType : KeywordType
  text : String
  dataTable : Option DataTable
  docString : Option DocString
  deriving DecidableEq, Repr

/-- A table of examples for a scenario outline. -/
structure ExamplesTable where
  id : String
  location : Location
  tags : List Tag
  keyword : String
  name : Option String
  description : String
  tableHeader : Option Row
  tableBody : List Row
  deriving DecidableEq, Repr

/-- The column names of a table of examples. -/
def ExamplesTable.parameterNames (e : ExamplesTable) : List String :=
  match e.tableHeader with
  | some header => header.values
  | none => []

structure Scenario where
  id : String
  location : Location
  tags : List Tag
  keyword : String
  name : String
  description : String
  steps : List Step
  examples : List ExamplesTable
  deriving DecidableEq, Repr

namespace Scenario

/-- Whether a scenario is a template for rows of examples. -/
def isTemplated (s : Scenario) : Bool := !s.examples.isEmpty

def tagNames (s : Scenario) : List String := s.tags.map Tag.label

end Scenario

structure Background where
  id : String
  location : Location
  keyword : String
  name : String
  description : String
  steps : List Step
  deriving DecidableEq, Repr

inductive RuleChild
  | background (b : Background)
  | scenario (s : Scenario)
  deriving DecidableEq, Repr

structure Rule where
  id : String
  location : Location
  tags : List Tag
  keyword : String
  name : String
  description : String
  children : List RuleChild
  deriving DecidableEq, Repr

namespace Rule

/-- The first background of a rule. -/
def background? (r : Rule) : Option Background :=
  r.children.findSome? fun
    | .background b => some b
    | .scenario _ => none

def scenarios (r : Rule) : List Scenario :=
  r.children.filterMap fun
    | .background _ => none
    | .scenario s => some s

end Rule

inductive FeatureChild
  | background (b : Background)
  | rule (r : Rule)
  | scenario (s : Scenario)
  deriving DecidableEq, Repr

structure Feature where
  location : Location
  tags : List Tag
  language : String
  keyword : String
  name : String
  description : String
  children : List FeatureChild
  deriving DecidableEq, Repr

namespace Feature

/-- The first background directly under a feature. -/
def background? (f : Feature) : Option Background :=
  f.children.findSome? fun
    | .background b => some b
    | _ => none

/-- The scenarios outside of rules. -/
def scenarios (f : Feature) : List Scenario :=
  f.children.filterMap fun
    | .scenario s => some s
    | _ => none

def rules (f : Feature) : List Rule :=
  f.children.filterMap fun
    | .rule r => some r
    | _ => none

end Feature

structure Document where
  feature : Feature
  comments : List Comment
  deriving DecidableEq, Repr

end Scenarist
