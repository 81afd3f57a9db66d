import Scenarist.Document.Basic
import Scenarist.Json.Basic

/-!
# Documents as JSON

Fields are written in the order of their names. Absent tables, doc strings, media types, headers and
names of examples leave no field.
-/

namespace Scenarist

/-- A field that is written only when there is a value. -/
def fieldIf {α : Type} (name : String) (write : α → Json) : Option α → List (String × Json)
  | none => []
  | some a => [(name, write a)]

def Location.toJson (l : Location) : Json := .obj [("column", .int l.column), ("line", .int l.line)]

def Comment.toJson (c : Comment) : Json :=
  .obj [("location", c.location.toJson), ("text", .str c.text)]

def Tag.toJson (t : Tag) : Json :=
  .obj [("id", .str t.id), ("location", t.location.toJson), ("name", .str t.name)]

def KeywordType.name : KeywordType → String
  | context => "Context"
  | action => "Action"
  | outcome => "Outcome"
  | conjunction => "Conjunction"
  | unknown => "Unknown"

def KeywordType.toJson (k : KeywordType) : Json := .str k.name

def Cell.toJson (c : Cell) : Json :=
  .obj [("location", c.location.toJson), ("value", .str c.value)]

def Row.toJson (r : Row) : Json :=
  .obj [("cells", .arr (r.cells.map Cell.toJson)), ("id", .str r.id),
    ("location", r.location.toJson)]

def DataTable.toJson (t : DataTable) : Json :=
  .obj [("location", t.location.toJson), ("rows", .arr (t.rows.map Row.toJson))]

def DocString.toJson (d : DocString) : Json :=
  .obj ([("content", .str d.content), ("delimiter", .str d.delimiter),
    ("location", d.location.toJson)] ++ fieldIf "mediaType" .str d.mediaType)

def Step.toJson (s : Step) : Json :=
  .obj (fieldIf "dataTable" DataTable.toJson s.dataTable ++
    fieldIf "docString" DocString.toJson s.docString ++
    [("id", .str s.id), ("keyword", .str s.keyword), ("keywordType", s.keywordType.toJson),
      ("location", s.location.toJson), ("text", .str s.text)])

def ExamplesTable.toJson (e : ExamplesTable) : Json :=
  .obj ([("description", .str e.description), ("id", .str e.id), ("keyword", .str e.keyword),
    ("location", e.location.toJson)] ++
    fieldIf "name" .str e.name ++
    [("tableBody", .arr (e.tableBody.map Row.toJson))] ++
    fieldIf "tableHeader" Row.toJson e.tableHeader ++
    [("tags", .arr (e.tags.map Tag.toJson))])

def Scenario.toJson (s : Scenario) : Json :=
  .obj [("description", .str s.description),
    ("examples", .arr (s.examples.map ExamplesTable.toJson)), ("id", .str s.id),
    ("keyword", .str s.keyword), ("location", s.location.toJson), ("name", .str s.name),
    ("steps", .arr (s.steps.map Step.toJson)), ("tags", .arr (s.tags.map Tag.toJson))]

def Background.toJson (b : Background) : Json :=
  .obj [("description", .str b.description), ("id", .str b.id), ("keyword", .str b.keyword),
    ("location", b.location.toJson), ("name", .str b.name),
    ("steps", .arr (b.steps.map Step.toJson))]

def RuleChild.toJson : RuleChild → Json
  | background b => .obj [("background", b.toJson)]
  | scenario s => .obj [("scenario", s.toJson)]

def Rule.toJson (r : Rule) : Json :=
  .obj [("children", .arr (r.children.map RuleChild.toJson)), ("description", .str r.description),
    ("id", .str r.id), ("keyword", .str r.keyword), ("location", r.location.toJson),
    ("name", .str r.name), ("tags", .arr (r.tags.map Tag.toJson))]

def FeatureChild.toJson : FeatureChild → Json
  | background b => .obj [("background", b.toJson)]
  | rule r => .obj [("rule", r.toJson)]
  | scenario s => .obj [("scenario", s.toJson)]

def Feature.toJson (f : Feature) : Json :=
  .obj [("children", .arr (f.children.map FeatureChild.toJson)),
    ("description", .str f.description), ("keyword", .str f.keyword),
    ("language", .str f.language), ("location", f.location.toJson), ("name", .str f.name),
    ("tags", .arr (f.tags.map Tag.toJson))]

def Document.toJson (d : Document) : Json :=
  .obj [("comments", .arr (d.comments.map Comment.toJson)), ("feature", d.feature.toJson)]

end Scenarist
