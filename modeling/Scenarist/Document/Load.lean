import Scenarist.Document.Write
import Scenarist.Json.Record
import Scenarist.Text.Backslash
import Scenarist.Text.Blank
import Scenarist.Text.Margin

/-!
# Loading documents

Cells are brought into raw form, doc strings lose their margin and step keywords the blanks around
them.
-/

namespace Scenarist.Load

/-- The greatest line or column. -/
def greatestIndex : Nat := Nat.pow 2 64 - 1

def location : Loader Location := fun d => do
  let s ← Source.ofDraft "Location" ["line", "column"] d
  let line := s.slot "line" (natural "usize" greatestIndex)
  let column := s.slot "column" (natural "usize" greatestIndex)
  s.check [line.report, column.report]
  return { line := ← s.require line, column := ← s.require column }

def comment : Loader Comment := fun d => do
  let s ← Source.ofDraft "Comment" ["location", "text"] d
  let location := s.slot "location" location
  let content := s.slot "text" text
  s.check [location.report, content.report]
  return { location := ← s.require location, text := ← s.require content }

def tag : Loader Tag := fun d => do
  let s ← Source.ofDraft "Tag" ["id", "location", "name"] d
  let id := s.slot "id" text
  let location := s.slot "location" location
  let name := s.slot "name" text
  s.check [id.report, location.report, name.report]
  return { id := ← s.require id, location := ← s.require location, name := ← s.require name }

def keywordType : Loader KeywordType :=
  plainVariant ([.context, .action, .outcome, .conjunction, .unknown].map fun k => (k.name, k))

/-- A text after a change to its characters. -/
def changed (change : List Char → List Char) : Loader String := fun d => do
  let s ← text d
  return String.ofList (change s.toList)

def cell : Loader Cell := fun d => do
  let s ← Source.ofDraft "Cell" ["location", "value"] d
  let location := s.slot "location" location
  let value := s.slot "value" (changed Text.pairBackslashes)
  s.check [location.report, value.report]
  return { location := ← s.require location, value := ← s.require value }

def row : Loader Row := fun d => do
  let s ← Source.ofDraft "Row" ["id", "location", "cells"] d
  let id := s.slot "id" text
  let location := s.slot "location" location
  let cells := s.slot "cells" (list cell)
  s.check [id.report, location.report, cells.report]
  return { id := ← s.require id, location := ← s.require location, cells := ← s.require cells }

def dataTable : Loader DataTable := fun d => do
  let s ← Source.ofDraft "DataTable" ["location", "rows"] d
  let location := s.slot "location" location
  let rows := s.slot "rows" (list row)
  s.check [location.report, rows.report]
  return { location := ← s.require location, rows := ← rows.orElse [] }

def docString : Loader DocString := fun d => do
  let s ← Source.ofDraft "DocString" ["location", "content", "delimiter", "mediaType"] d
  let location := s.slot "location" location
  let content := s.slot "content" (changed Text.dedent)
  let delimiter := s.slot "delimiter" text
  let mediaType := s.slot "mediaType" (optional text)
  s.check [location.report, content.report, delimiter.report, mediaType.report]
  return {
    location := ← s.require location
    content := ← s.require content
    delimiter := ← s.require delimiter
    mediaType := ← mediaType.orElse none }

def step : Loader Step := fun d => do
  let s ← Source.ofDraft "Step"
    ["id", "location", "keyword", "keywordType", "text", "dataTable", "docString"] d
  let id := s.slot "id" text
  let location := s.slot "location" location
  let keyword := s.slot "keyword" (changed Text.trim)
  let keywordType := s.slot "keywordType" keywordType
  let content := s.slot "text" text
  let dataTable := s.slot "dataTable" (optional dataTable)
  let docString := s.slot "docString" (optional docString)
  s.check [id.report, location.report, keyword.report, keywordType.report, content.report,
    dataTable.report, docString.report]
  return {
    id := ← s.require id
    location := ← s.require location
    keyword := ← s.require keyword
    keywordType := ← s.require keywordType
    text := ← s.require content
    dataTable := ← dataTable.orElse none
    docString := ← docString.orElse none }

def examplesTable : Loader ExamplesTable := fun d => do
  let s ← Source.ofDraft "ExamplesTable"
    ["id", "location", "tags", "keyword", "name", "description", "tableHeader", "tableBody"] d
  let id := s.slot "id" text
  let location := s.slot "location" location
  let tags := s.slot "tags" (list tag)
  let keyword := s.slot "keyword" text
  let name := s.slot "name" (optional text)
  let description := s.slot "description" text
  let tableHeader := s.slot "tableHeader" (optional row)
  let tableBody := s.slot "tableBody" (list row)
  s.check [id.report, location.report, tags.report, keyword.report, name.report,
    description.report, tableHeader.report, tableBody.report]
  return {
    id := ← s.require id
    location := ← s.require location
    tags := ← tags.orElse []
    keyword := ← keyword.orElse ""
    name := ← name.orElse none
    description := ← description.orElse ""
    tableHeader := ← tableHeader.orElse none
    tableBody := ← tableBody.orElse [] }

def scenario : Loader Scenario := fun d => do
  let s ← Source.ofDraft "Scenario"
    ["id", "location", "tags", "keyword", "name", "description", "steps", "examples"] d
  let id := s.slot "id" text
  let location := s.slot "location" location
  let tags := s.slot "tags" (list tag)
  let keyword := s.slot "keyword" text
  let name := s.slot "name" text
  let description := s.slot "description" text
  let steps := s.slot "steps" (list step)
  let examples := s.slot "examples" (list examplesTable)
  s.check [id.report, location.report, tags.report, keyword.report, name.report,
    description.report, steps.report, examples.report]
  return {
    id := ← s.require id
    location := ← s.require location
    tags := ← s.require tags
    keyword := ← s.require keyword
    name := ← s.require name
    description := ← s.require description
    steps := ← s.require steps
    examples := ← examples.orElse [] }

def background : Loader Background := fun d => do
  let s ← Source.ofDraft "Background"
    ["id", "location", "keyword", "name", "description", "steps"] d
  let id := s.slot "id" text
  let location := s.slot "location" location
  let keyword := s.slot "keyword" text
  let name := s.slot "name" text
  let description := s.slot "description" text
  let steps := s.slot "steps" (list step)
  s.check [id.report, location.report, keyword.report, name.report, description.report,
    steps.report]
  return {
    id := ← s.require id
    location := ← s.require location
    keyword := ← s.require keyword
    name := ← s.require name
    description := ← s.require description
    steps := ← s.require steps }

def ruleChild : Loader RuleChild :=
  taggedVariant [
    ("background", fun d => .background <$> background d),
    ("scenario", fun d => .scenario <$> scenario d)]

def rule : Loader Rule := fun d => do
  let s ← Source.ofDraft "Rule"
    ["id", "location", "tags", "keyword", "name", "description", "children"] d
  let id := s.slot "id" text
  let location := s.slot "location" location
  let tags := s.slot "tags" (list tag)
  let keyword := s.slot "keyword" text
  let name := s.slot "name" text
  let description := s.slot "description" text
  let children := s.slot "children" (list ruleChild)
  s.check [id.report, location.report, tags.report, keyword.report, name.report,
    description.report, children.report]
  return {
    id := ← s.require id
    location := ← s.require location
    tags := ← s.require tags
    keyword := ← s.require keyword
    name := ← s.require name
    description := ← s.require description
    children := ← s.require children }

def featureChild : Loader FeatureChild :=
  taggedVariant [
    ("background", fun d => .background <$> background d),
    ("rule", fun d => .rule <$> rule d),
    ("scenario", fun d => .scenario <$> scenario d)]

def feature : Loader Feature := fun d => do
  let s ← Source.ofDraft "Feature"
    ["location", "tags", "language", "keyword", "name", "description", "children"] d
  let location := s.slot "location" location
  let tags := s.slot "tags" (list tag)
  let language := s.slot "language" text
  let keyword := s.slot "keyword" text
  let name := s.slot "name" text
  let description := s.slot "description" text
  let children := s.slot "children" (list featureChild)
  s.check [location.report, tags.report, language.report, keyword.report, name.report,
    description.report, children.report]
  return {
    location := ← s.require location
    tags := ← s.require tags
    language := ← s.require language
    keyword := ← s.require keyword
    name := ← s.require name
    description := ← s.require description
    children := ← s.require children }

def document : Loader Document := fun d => do
  let s ← Source.ofDraft "GherkinDocument" ["feature", "comments"] d
  let feature := s.slot "feature" feature
  let comments := s.slot "comments" (list comment)
  s.check [feature.report, comments.report]
  return { feature := ← s.require feature, comments := ← comments.orElse [] }

end Scenarist.Load
