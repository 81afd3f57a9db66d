import Scenarist.Document.Load
import Scenarist.Proofs.Json.Record
import Scenarist.Proofs.Text.Blank
import Scenarist.Proofs.Text.NormalForm

/-!
# Documents that are read back

A node is normal when its cells are in raw form, its doc strings have no margin, its keywords have no
blanks around them and its lines and columns are in range.  What loads is normal, and a normal node
is written so that it loads as itself.
-/

namespace Scenarist

/-! ### Texts -/

theorem Load.codec_changed {change : List Char → List Char}
    (h : ∀ s, change (change s) = change s) :
    Codec (changed change) .str fun s => change s.toList = s.toList where
  normal := by
    intro d a hLoad
    obtain ⟨s, _, hEq⟩ := bind_eq_ok_iff.mp hLoad
    obtain rfl := Except.ok.inj hEq
    rw [String.toList_ofList, h]
  reload := by
    intro s hNormal
    show Except.ok (String.ofList (change s.toList)) = Except.ok s
    rw [hNormal, String.ofList_toList]

theorem Load.codec_paired : Codec (changed Text.pairBackslashes) .str fun s =>
    Text.pairBackslashes s.toList = s.toList := codec_changed Text.pairBackslashes_pairBackslashes

theorem Load.codec_dedented : Codec (changed Text.dedent) .str fun s =>
    Text.dedent s.toList = s.toList := codec_changed Text.dedent_dedent

theorem Load.codec_trimmed : Codec (changed Text.trim) .str fun s =>
    Text.trim s.toList = s.toList := codec_changed Text.trim_trim

/-! ### Places, comments and tags -/

structure Location.Normal (l : Location) : Prop where
  line : l.line ≤ Load.greatestIndex
  column : l.column ≤ Load.greatestIndex

theorem Load.codec_location : Codec location Location.toJson Location.Normal where
  normal := by
    intro d l h
    simp only [location, bind_eq_ok_iff] at h
    obtain ⟨s, _, _, _, line, hLine, column, hColumn, hEq⟩ := h
    obtain rfl := Except.ok.inj hEq
    exact ⟨(codec_natural _ _).of_require hLine, (codec_natural _ _).of_require hColumn⟩
  reload := by
    intro l h
    simp [location, Location.toJson, h.line, h.column]

theorem Load.location_toJson_eq_ok_iff {l l' : Location} :
    location l.toJson.draft = .ok l' ↔ l.Normal ∧ l' = l := by
  constructor
  · intro h
    simp only [location, Location.toJson, draft_obj, ofDraft_obj, ok_bind, bind_eq_ok_iff] at h
    obtain ⟨-, -, line, hLine, column, hColumn, hEq⟩ := h
    obtain ⟨e, hFind, hLine⟩ := exists_of_require hLine
    obtain rfl : ("line", Draft.int l.line) = e := by simpa using hFind
    obtain ⟨e, hFind, hColumn⟩ := exists_of_require hColumn
    obtain rfl : ("column", Draft.int l.column) = e := by simpa using hFind
    obtain ⟨hLineNormal, rfl⟩ := natural_int_eq_ok_iff.mp hLine
    obtain ⟨hColumnNormal, rfl⟩ := natural_int_eq_ok_iff.mp hColumn
    exact ⟨⟨hLineNormal, hColumnNormal⟩, (Except.ok.inj hEq).symm⟩
  · rintro ⟨hNormal, rfl⟩
    exact codec_location.reload hNormal

def Comment.Normal (c : Comment) : Prop := c.location.Normal

theorem Load.codec_comment : Codec comment Comment.toJson Comment.Normal where
  normal := by
    intro d c h
    simp only [comment, bind_eq_ok_iff] at h
    obtain ⟨s, _, _, _, l, hLocation, content, _, hEq⟩ := h
    obtain rfl := Except.ok.inj hEq
    exact codec_location.of_require hLocation
  reload := by
    intro c h
    simp [comment, Comment.toJson, codec_location.reload h]

def Tag.Normal (t : Tag) : Prop := t.location.Normal

theorem Load.codec_tag : Codec tag Tag.toJson Tag.Normal where
  normal := by
    intro d t h
    simp only [tag, bind_eq_ok_iff] at h
    obtain ⟨s, _, _, _, id, _, l, hLocation, name, _, hEq⟩ := h
    obtain rfl := Except.ok.inj hEq
    exact codec_location.of_require hLocation
  reload := by
    intro t h
    simp [tag, Tag.toJson, codec_location.reload h]

/-! ### Tables -/

structure Cell.Normal (c : Cell) : Prop where
  location : c.location.Normal
  value : Text.pairBackslashes c.value.toList = c.value.toList

theorem Load.codec_cell : Codec cell Cell.toJson Cell.Normal where
  normal := by
    intro d c h
    simp only [cell, bind_eq_ok_iff] at h
    obtain ⟨s, _, _, _, l, hLocation, value, hValue, hEq⟩ := h
    obtain rfl := Except.ok.inj hEq
    exact ⟨codec_location.of_require hLocation, codec_paired.of_require hValue⟩
  reload := by
    intro c h
    have hValue := codec_paired.reload h.value
    rw [draft_str] at hValue
    simp [cell, Cell.toJson, codec_location.reload h.location, hValue]

structure Row.Normal (r : Row) : Prop where
  location : r.location.Normal
  cells : ∀ c ∈ r.cells, c.Normal

theorem Load.codec_row : Codec row Row.toJson Row.Normal where
  normal := by
    intro d r h
    simp only [row, bind_eq_ok_iff] at h
    obtain ⟨s, _, _, _, id, _, l, hLocation, cells, hCells, hEq⟩ := h
    obtain rfl := Except.ok.inj hEq
    exact ⟨codec_location.of_require hLocation, codec_cell.list.of_require hCells⟩
  reload := by
    intro r h
    have hCells := codec_cell.list.reload h.cells
    simp [row, Row.toJson, codec_location.reload h.location, hCells]

structure DataTable.Normal (t : DataTable) : Prop where
  location : t.location.Normal
  rows : ∀ r ∈ t.rows, r.Normal

theorem Load.codec_dataTable : Codec dataTable DataTable.toJson DataTable.Normal where
  normal := by
    intro d t h
    simp only [dataTable, bind_eq_ok_iff] at h
    obtain ⟨s, _, _, _, l, hLocation, rows, hRows, hEq⟩ := h
    obtain rfl := Except.ok.inj hEq
    exact ⟨codec_location.of_require hLocation, codec_row.list.of_orElse (by simp) hRows⟩
  reload := by
    intro t h
    have hRows := codec_row.list.reload h.rows
    simp [dataTable, DataTable.toJson, codec_location.reload h.location, hRows]

/-! ### Steps -/

structure DocString.Normal (d : DocString) : Prop where
  location : d.location.Normal
  content : Text.dedent d.content.toList = d.content.toList

theorem Load.codec_docString : Codec docString DocString.toJson DocString.Normal where
  normal := by
    intro d t h
    simp only [docString, bind_eq_ok_iff] at h
    obtain ⟨s, _, _, _, l, hLocation, content, hContent, delimiter, _, mediaType, _, hEq⟩ := h
    obtain rfl := Except.ok.inj hEq
    exact ⟨codec_location.of_require hLocation, codec_dedented.of_require hContent⟩
  reload := by
    intro t h
    have hLocation := codec_location.reload h.location
    have hContent := codec_dedented.reload h.content
    rw [draft_str] at hContent
    obtain ⟨l, content, delimiter, mediaType⟩ := t
    cases mediaType with
    | none => simp [docString, DocString.toJson, fieldIf, hLocation, hContent]
    | some m =>
      have hMedia : optional text (.str m) = .ok (some m) := rfl
      simp [docString, DocString.toJson, fieldIf, hLocation, hContent, hMedia]

/-- A doc string that was written loads without its margin. -/
theorem Load.docString_toJson_eq_ok_iff {d b : DocString} :
    docString d.toJson.draft = .ok b ↔
      d.location.Normal ∧
        b = { d with content := String.ofList (Text.dedent d.content.toList) } := by
  have hLoad : d.location.Normal → docString d.toJson.draft =
      .ok { d with content := String.ofList (Text.dedent d.content.toList) } := by
    intro hNormal
    have hLocation := codec_location.reload hNormal
    have hContent : changed Text.dedent (.str d.content) =
        .ok (String.ofList (Text.dedent d.content.toList)) := rfl
    obtain ⟨l, content, delimiter, mediaType⟩ := d
    cases mediaType with
    | none => simp [docString, DocString.toJson, fieldIf, hLocation, hContent]
    | some m =>
      have hMedia : optional text (.str m) = .ok (some m) := rfl
      simp [docString, DocString.toJson, fieldIf, hLocation, hContent, hMedia]
  constructor
  · intro h
    have hNormal : d.location.Normal := by
      simp only [docString, DocString.toJson, draft_obj, ofDraft_obj, ok_bind, bind_eq_ok_iff] at h
      obtain ⟨-, -, l, hLocation, -⟩ := h
      obtain ⟨e, hFind, hLocation⟩ := exists_of_require hLocation
      obtain rfl : ("location", d.location.toJson.draft) = e := by simpa using hFind
      exact (location_toJson_eq_ok_iff.mp hLocation).1
    rw [hLoad hNormal] at h
    exact ⟨hNormal, (Except.ok.inj h).symm⟩
  · rintro ⟨hNormal, rfl⟩
    exact hLoad hNormal

theorem Load.keywordType_toJson (k : KeywordType) : keywordType k.toJson.draft = .ok k := by
  cases k <;> rfl

structure Step.Normal (s : Step) : Prop where
  location : s.location.Normal
  keyword : Text.trim s.keyword.toList = s.keyword.toList
  dataTable : ∀ t ∈ s.dataTable, t.Normal
  docString : ∀ d ∈ s.docString, d.Normal

theorem Load.codec_step : Codec step Step.toJson Step.Normal where
  normal := by
    intro d t h
    simp only [step, bind_eq_ok_iff] at h
    obtain ⟨s, _, _, _, id, _, l, hLocation, keyword, hKeyword, keywordType, _, content, _,
      dataTable, hDataTable, docString, hDocString, hEq⟩ := h
    obtain rfl := Except.ok.inj hEq
    exact ⟨codec_location.of_require hLocation, codec_trimmed.of_require hKeyword,
      codec_dataTable.of_optional hDataTable, codec_docString.of_optional hDocString⟩
  reload := by
    intro t h
    have hLocation := codec_location.reload h.location
    have hKeyword := codec_trimmed.reload h.keyword
    have hDataTable : ∀ t' ∈ t.dataTable, optional dataTable t'.toJson.draft = .ok (some t') :=
      fun t' ht => optional_eq_ok (by simp [DataTable.toJson])
        (codec_dataTable.reload (h.dataTable t' ht))
    have hDocString : ∀ d ∈ t.docString, optional docString d.toJson.draft = .ok (some d) :=
      fun d hd => optional_eq_ok (by simp [DocString.toJson])
        (codec_docString.reload (h.docString d hd))
    rw [draft_str] at hKeyword
    obtain ⟨id, l, keyword, kind, content, table, doc⟩ := t
    cases table with
    | none =>
      cases doc with
      | none => simp [step, Step.toJson, fieldIf, keywordType_toJson, hLocation, hKeyword]
      | some doc =>
        simp [step, Step.toJson, fieldIf, keywordType_toJson, hLocation, hKeyword,
          hDocString doc rfl]
    | some table =>
      cases doc with
      | none =>
        simp [step, Step.toJson, fieldIf, keywordType_toJson, hLocation, hKeyword,
          hDataTable table rfl]
      | some doc =>
        simp [step, Step.toJson, fieldIf, keywordType_toJson, hLocation, hKeyword,
          hDataTable table rfl, hDocString doc rfl]

/-- The doc string of a step that was written and loaded is its doc string, written and loaded. -/
theorem Load.exists_docString_of_step {t loaded : Step} {d : DocString}
    (hDoc : t.docString = some d) (h : step t.toJson.draft = .ok loaded) :
    ∃ b, docString d.toJson.draft = .ok b ∧ loaded.docString = some b := by
  simp only [step, Step.toJson, draft_obj, ofDraft_obj, ok_bind, bind_eq_ok_iff] at h
  obtain ⟨-, -, id, -, l, -, keyword, -, kind, -, content, -, table, -, doc, hLoaded, hEq⟩ := h
  obtain rfl := Except.ok.inj hEq
  have hFind : (Json.draftEntries (fieldIf "dataTable" DataTable.toJson t.dataTable ++
      fieldIf "docString" DocString.toJson t.docString ++
      [("id", .str t.id), ("keyword", .str t.keyword), ("keywordType", t.keywordType.toJson),
        ("location", t.location.toJson), ("text", .str t.text)])).find?
      (fun e => e.1 = "docString") = some ("docString", d.toJson.draft) := by
    rw [hDoc]
    cases t.dataTable <;> simp [fieldIf]
  rcases exists_or_missing_of_orElse hLoaded with ⟨e, hField, hOptional⟩ | ⟨hMissing, -⟩
  · obtain rfl := Option.some.inj (hFind.symm.trans hField)
    unfold optional at hOptional
    split at hOptional
    · next hNull => exact absurd hNull (by simp [DocString.toJson])
    · obtain ⟨b, hb, rfl⟩ := map_eq_ok_iff.mp hOptional
      exact ⟨b, hb, rfl⟩
  · exact absurd (hFind.symm.trans hMissing) (by simp)

/-! ### Scenarios -/

structure ExamplesTable.Normal (e : ExamplesTable) : Prop where
  location : e.location.Normal
  tags : ∀ t ∈ e.tags, t.Normal
  tableHeader : ∀ r ∈ e.tableHeader, r.Normal
  tableBody : ∀ r ∈ e.tableBody, r.Normal

theorem Load.codec_examplesTable :
    Codec examplesTable ExamplesTable.toJson ExamplesTable.Normal where
  normal := by
    intro d e h
    simp only [examplesTable, bind_eq_ok_iff] at h
    obtain ⟨s, _, _, _, id, _, l, hLocation, tags, hTags, keyword, _, name, _, description, _,
      header, hHeader, body, hBody, hEq⟩ := h
    obtain rfl := Except.ok.inj hEq
    exact ⟨codec_location.of_require hLocation, codec_tag.list.of_orElse (by simp) hTags,
      codec_row.of_optional hHeader, codec_row.list.of_orElse (by simp) hBody⟩
  reload := by
    intro e h
    have hLocation := codec_location.reload h.location
    have hTags := codec_tag.list.reload h.tags
    have hBody := codec_row.list.reload h.tableBody
    have hHeader : ∀ r ∈ e.tableHeader, optional row r.toJson.draft = .ok (some r) :=
      fun r hr => optional_eq_ok (by simp [Row.toJson]) (codec_row.reload (h.tableHeader r hr))
    have hName : ∀ n, optional text (.str n) = .ok (some n) := fun _ => rfl
    obtain ⟨id, l, tags, keyword, name, description, header, body⟩ := e
    cases name <;> cases header <;>
      simp_all [examplesTable, ExamplesTable.toJson, fieldIf]

structure Scenario.Normal (s : Scenario) : Prop where
  location : s.location.Normal
  tags : ∀ t ∈ s.tags, t.Normal
  steps : ∀ t ∈ s.steps, t.Normal
  examples : ∀ e ∈ s.examples, e.Normal

theorem Load.codec_scenario : Codec scenario Scenario.toJson Scenario.Normal where
  normal := by
    intro d t h
    simp only [scenario, bind_eq_ok_iff] at h
    obtain ⟨s, _, _, _, id, _, l, hLocation, tags, hTags, keyword, _, name, _, description, _,
      steps, hSteps, examples, hExamples, hEq⟩ := h
    obtain rfl := Except.ok.inj hEq
    exact ⟨codec_location.of_require hLocation, codec_tag.list.of_require hTags,
      codec_step.list.of_require hSteps, codec_examplesTable.list.of_orElse (by simp) hExamples⟩
  reload := by
    intro t h
    have hTags := codec_tag.list.reload h.tags
    have hSteps := codec_step.list.reload h.steps
    have hExamples := codec_examplesTable.list.reload h.examples
    simp [scenario, Scenario.toJson, codec_location.reload h.location, hTags, hSteps, hExamples]

/-! ### Backgrounds and rules -/

structure Background.Normal (b : Background) : Prop where
  location : b.location.Normal
  steps : ∀ s ∈ b.steps, s.Normal

theorem Load.codec_background : Codec background Background.toJson Background.Normal where
  normal := by
    intro d b h
    simp only [background, bind_eq_ok_iff] at h
    obtain ⟨s, _, _, _, id, _, l, hLocation, keyword, _, name, _, description, _, steps, hSteps,
      hEq⟩ := h
    obtain rfl := Except.ok.inj hEq
    exact ⟨codec_location.of_require hLocation, codec_step.list.of_require hSteps⟩
  reload := by
    intro b h
    have hSteps := codec_step.list.reload h.steps
    simp [background, Background.toJson, codec_location.reload h.location, hSteps]

def RuleChild.Normal : RuleChild → Prop
  | background b => b.Normal
  | scenario s => s.Normal

theorem Load.codec_ruleChild : Codec ruleChild RuleChild.toJson RuleChild.Normal where
  normal := by
    intro d c h
    obtain ⟨name, content, load, -, hKnown, hLoad⟩ := exists_of_taggedVariant h
    simp only [List.mem_cons, List.not_mem_nil, or_false, Prod.mk.injEq] at hKnown
    rcases hKnown with ⟨-, rfl⟩ | ⟨-, rfl⟩
    · obtain ⟨b, hb, rfl⟩ := map_eq_ok_iff.mp hLoad
      exact codec_background.normal hb
    · obtain ⟨s, hs, rfl⟩ := map_eq_ok_iff.mp hLoad
      exact codec_scenario.normal hs
  reload := by
    intro c h
    cases c with
    | background b => exact map_eq_ok_iff.mpr ⟨b, codec_background.reload h, rfl⟩
    | scenario s => exact map_eq_ok_iff.mpr ⟨s, codec_scenario.reload h, rfl⟩

structure Rule.Normal (r : Rule) : Prop where
  location : r.location.Normal
  tags : ∀ t ∈ r.tags, t.Normal
  children : ∀ c ∈ r.children, c.Normal

theorem Load.codec_rule : Codec rule Rule.toJson Rule.Normal where
  normal := by
    intro d r h
    simp only [rule, bind_eq_ok_iff] at h
    obtain ⟨s, _, _, _, id, _, l, hLocation, tags, hTags, keyword, _, name, _, description, _,
      children, hChildren, hEq⟩ := h
    obtain rfl := Except.ok.inj hEq
    exact ⟨codec_location.of_require hLocation, codec_tag.list.of_require hTags,
      codec_ruleChild.list.of_require hChildren⟩
  reload := by
    intro r h
    have hTags := codec_tag.list.reload h.tags
    have hChildren := codec_ruleChild.list.reload h.children
    simp [rule, Rule.toJson, codec_location.reload h.location, hTags, hChildren]

/-! ### Features and documents -/

def FeatureChild.Normal : FeatureChild → Prop
  | background b => b.Normal
  | rule r => r.Normal
  | scenario s => s.Normal

theorem Load.codec_featureChild : Codec featureChild FeatureChild.toJson FeatureChild.Normal where
  normal := by
    intro d c h
    obtain ⟨name, content, load, -, hKnown, hLoad⟩ := exists_of_taggedVariant h
    simp only [List.mem_cons, List.not_mem_nil, or_false, Prod.mk.injEq] at hKnown
    rcases hKnown with ⟨-, rfl⟩ | ⟨-, rfl⟩ | ⟨-, rfl⟩
    · obtain ⟨b, hb, rfl⟩ := map_eq_ok_iff.mp hLoad
      exact codec_background.normal hb
    · obtain ⟨r, hr, rfl⟩ := map_eq_ok_iff.mp hLoad
      exact codec_rule.normal hr
    · obtain ⟨s, hs, rfl⟩ := map_eq_ok_iff.mp hLoad
      exact codec_scenario.normal hs
  reload := by
    intro c h
    cases c with
    | background b => exact map_eq_ok_iff.mpr ⟨b, codec_background.reload h, rfl⟩
    | rule r => exact map_eq_ok_iff.mpr ⟨r, codec_rule.reload h, rfl⟩
    | scenario s => exact map_eq_ok_iff.mpr ⟨s, codec_scenario.reload h, rfl⟩

structure Feature.Normal (f : Feature) : Prop where
  location : f.location.Normal
  tags : ∀ t ∈ f.tags, t.Normal
  children : ∀ c ∈ f.children, c.Normal

theorem Load.codec_feature : Codec feature Feature.toJson Feature.Normal where
  normal := by
    intro d f h
    simp only [feature, bind_eq_ok_iff] at h
    obtain ⟨s, _, _, _, l, hLocation, tags, hTags, language, _, keyword, _, name, _, description,
      _, children, hChildren, hEq⟩ := h
    obtain rfl := Except.ok.inj hEq
    exact ⟨codec_location.of_require hLocation, codec_tag.list.of_require hTags,
      codec_featureChild.list.of_require hChildren⟩
  reload := by
    intro f h
    have hTags := codec_tag.list.reload h.tags
    have hChildren := codec_featureChild.list.reload h.children
    simp [feature, Feature.toJson, codec_location.reload h.location, hTags, hChildren]

structure Document.Normal (d : Document) : Prop where
  feature : d.feature.Normal
  comments : ∀ c ∈ d.comments, c.Normal

theorem Load.codec_document : Codec document Document.toJson Document.Normal where
  normal := by
    intro d t h
    simp only [document, bind_eq_ok_iff] at h
    obtain ⟨s, _, _, _, feature, hFeature, comments, hComments, hEq⟩ := h
    obtain rfl := Except.ok.inj hEq
    exact ⟨codec_feature.of_require hFeature, codec_comment.list.of_orElse (by simp) hComments⟩
  reload := by
    intro t h
    have hComments := codec_comment.list.reload h.comments
    simp [document, Document.toJson, codec_feature.reload h.feature, hComments]

/-! ### All types of nodes -/

/-- The types of nodes. -/
inductive NodeType
  | document | feature | rule | background | scenario | step | examplesTable | dataTable | row
  | cell | docString | tag | comment
  deriving DecidableEq, Repr

namespace NodeType

/-- The nodes of a type. -/
def Node : NodeType → Type
  | document => Document
  | feature => Feature
  | rule => Rule
  | background => Background
  | scenario => Scenario
  | step => Step
  | examplesTable => ExamplesTable
  | dataTable => DataTable
  | row => Row
  | cell => Cell
  | docString => DocString
  | tag => Tag
  | comment => Comment

/-- Loads a node of a type. -/
def load : (t : NodeType) → Loader t.Node
  | document => Load.document
  | feature => Load.feature
  | rule => Load.rule
  | background => Load.background
  | scenario => Load.scenario
  | step => Load.step
  | examplesTable => Load.examplesTable
  | dataTable => Load.dataTable
  | row => Load.row
  | cell => Load.cell
  | docString => Load.docString
  | tag => Load.tag
  | comment => Load.comment

/-- Writes a node of a type. -/
def toJson : (t : NodeType) → t.Node → Json
  | document => Document.toJson
  | feature => Feature.toJson
  | rule => Rule.toJson
  | background => Background.toJson
  | scenario => Scenario.toJson
  | step => Step.toJson
  | examplesTable => ExamplesTable.toJson
  | dataTable => DataTable.toJson
  | row => Row.toJson
  | cell => Cell.toJson
  | docString => DocString.toJson
  | tag => Tag.toJson
  | comment => Comment.toJson

def Normal : (t : NodeType) → t.Node → Prop
  | document => Document.Normal
  | feature => Feature.Normal
  | rule => Rule.Normal
  | background => Background.Normal
  | scenario => Scenario.Normal
  | step => Step.Normal
  | examplesTable => ExamplesTable.Normal
  | dataTable => DataTable.Normal
  | row => Row.Normal
  | cell => Cell.Normal
  | docString => DocString.Normal
  | tag => Tag.Normal
  | comment => Comment.Normal

theorem codec (t : NodeType) : Load.Codec t.load t.toJson t.Normal := by
  cases t with
  | document => exact Load.codec_document
  | feature => exact Load.codec_feature
  | rule => exact Load.codec_rule
  | background => exact Load.codec_background
  | scenario => exact Load.codec_scenario
  | step => exact Load.codec_step
  | examplesTable => exact Load.codec_examplesTable
  | dataTable => exact Load.codec_dataTable
  | row => exact Load.codec_row
  | cell => exact Load.codec_cell
  | docString => exact Load.codec_docString
  | tag => exact Load.codec_tag
  | comment => exact Load.codec_comment

/-- **One load makes a node normal**: what was loaded from a tree, however that was written, is
loaded again from what is written of it, and then the same is written. -/
theorem reload_toJson (t : NodeType) {tree : Draft} {n : t.Node} (h : t.load tree = .ok n) :
    ∃ n', t.load (t.toJson n).draft = .ok n' ∧ n' = n ∧ t.toJson n' = t.toJson n :=
  ⟨n, t.codec.reload_of_load h, rfl, rfl⟩

/-- A step with blanks around its keyword, nothing for a table, and a margin in its doc string. -/
def looseStep : Json :=
  .obj [("dataTable", .null),
    ("docString", .obj [("content", .str "  a\n    b\n "), ("delimiter", .str "```"),
      ("location", .obj [("column", .int 3), ("line", .int 5)])]),
    ("id", .str "1"), ("keyword", .str " Given "), ("keywordType", .str "Context"),
    ("location", .obj [("column", .int 1), ("line", .int 4)]), ("text", .str "text")]

/-- The step that it loads as. -/
def tidyStep : Step :=
  ⟨"1", ⟨4, 1⟩, "Given", .context, "text", none, some ⟨⟨5, 3⟩, "a\n  b\n", "```", none⟩⟩

theorem reload_looseStep :
    step.load looseStep.draft = .ok tidyStep ∧
      ∃ n', step.load (step.toJson tidyStep).draft = .ok n' ∧ n' = tidyStep ∧
        step.toJson n' = step.toJson tidyStep := by
  have hLoad : step.load looseStep.draft = .ok tidyStep := by
    show Load.step looseStep.draft = .ok tidyStep
    decide +kernel
  exact ⟨hLoad, step.reload_toJson hLoad⟩

end NodeType

end Scenarist
