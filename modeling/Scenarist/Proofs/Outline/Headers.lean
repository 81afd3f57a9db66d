import Scenarist.Outline.Expansion
import Scenarist.Proofs.Document.Given
import Scenarist.Proofs.Outline.Placeholders
import Scenarist.Proofs.Text.Backslash

/-!
# Columns that are named as they are written

The header of a table of examples is brought into raw form when it is loaded, and the texts of steps
are not.  So a step that names a column in the way its header is written in the tree finds a column
only if the header is raw already.

* `substitute_single`: what becomes of a text with one placeholder.
* `render_named_as_written`: a column that is named as it is written is replaced when its header has
  even runs of backslashes only, and the text stays as it is when it has not.
* `render_misses_single_backslash`: so not every column that is named as it is written is replaced.
-/

namespace Scenarist.Outline

open Text

variable {ps : Parameters}

/-! ### One placeholder -/

theorem substituteChars_append {a : List Char} (ha : '<' ∉ a) (s : List Char) :
    substituteChars ps (a ++ s) = a ++ substituteChars ps s := by
  induction a with
  | nil => rfl
  | cons c a ih =>
    obtain ⟨hc, ha⟩ := List.ne_and_not_mem_of_not_mem_cons ha
    rw [List.cons_append, substituteChars, if_neg hc.symm, ih ha, List.cons_append]

/-- What stands in the place of a placeholder: the value of its name, if it has one. -/
def filled (ps : Parameters) (name : List Char) : List Char :=
  match ps.get? (String.ofList name) with
  | some value => value.toList
  | none => bracketed name

theorem substituteChars_bracketed {name : List Char} (h : ColumnName name) (s : List Char) :
    substituteChars ps (bracketed name ++ s) = filled ps name ++ substituteChars ps s := by
  have hText : bracketed name ++ s = '<' :: (name ++ '>' :: s) := by
    rw [bracketed, List.cons_append, List.append_assoc]
    rfl
  rw [hText, substituteChars, if_pos rfl]
  split
  · next hNone =>
    rw [h.placeholder?] at hNone
    cases hNone
  · next found after hSome =>
    rw [h.placeholder?] at hSome
    cases hSome
    rfl

/-- **What becomes of a text with one placeholder.** -/
theorem substitute_single {name a b : List Char} (h : ColumnName name) (ha : '<' ∉ a)
    (hb : '<' ∉ b) :
    substituteChars ps (a ++ (bracketed name ++ b)) = a ++ (filled ps name ++ b) := by
  have hEnd : substituteChars ps b = b := by
    have hAll := @substituteChars_append ps b hb []
    rwa [List.append_nil, substituteChars, List.append_nil] at hAll
  rw [substituteChars_append ha, substituteChars_bracketed h, hEnd]

/-! ### The value of a column -/

/-- The value of the first column of a name. -/
theorem get?_zip_of_first {names values : List String} {name value : String} {column : Nat}
    (hName : names[column]? = some name) (hFirst : ∀ j < column, names[j]? ≠ some name)
    (hValue : values[column]? = some value) :
    Parameters.get? (names.zip values) name = some value := by
  induction column generalizing names values with
  | zero =>
    obtain ⟨names, rfl⟩ := List.head?_eq_some_iff.mp (List.head?_eq_getElem? ▸ hName)
    obtain ⟨values, rfl⟩ := List.head?_eq_some_iff.mp (List.head?_eq_getElem? ▸ hValue)
    simp [Parameters.get?]
  | succ column ih =>
    cases names with
    | nil => cases hName
    | cons n names =>
      cases values with
      | nil => cases hValue
      | cons v values =>
        have hn : n ≠ name := fun hEq => hFirst 0 (Nat.succ_pos column) (congrArg some hEq)
        have hRest := ih hName (fun j hj => hFirst (j + 1) (Nat.succ_lt_succ hj)) hValue
        rw [← hRest, Parameters.get?, List.zip_cons_cons,
          List.find?_cons_of_neg (by simpa using hn)]
        rfl

theorem get?_zip_eq_none {names values : List String} {name : String} (h : name ∉ names) :
    Parameters.get? (names.zip values) name = none := by
  rw [Parameters.get?, Option.map_eq_none_iff, List.find?_eq_none]
  rintro ⟨n, v⟩ hMem hEq
  have hn : n = name := by simpa using hEq
  exact h (hn ▸ (List.of_mem_zip hMem).1)

/-! ### Outlines -/

open Given

/-- An outline of a document tree and one of its tables of examples, and what they are loaded as. -/
structure LoadedOutline (tree outline : Draft) (s : Scenario) (table : Draft) (e : ExamplesTable) :
    Prop where
  document : ∃ doc, Load.document tree = .ok doc ∧
    (outline, s) ∈ (Given.scenarios tree).zip doc.scenarios
  table : (table, e) ∈ (Given.examples outline).zip s.examples

/-- A step of an outline names a column once, in the way it is written in the header, and holds no
other bracket. -/
structure NamedAsWritten (outline table : Draft) (column step : Nat) (name front back : String) :
    Prop where
  header : (headers table)[column]? = some name
  columnName : ColumnName name.toList
  step : (stepTexts outline)[step]? = some (front ++ "<" ++ name ++ ">" ++ back)
  front : '<' ∉ front.toList
  back : '<' ∉ back.toList

/-- The text of a step in the scenario of a row. -/
def renderedText (s : Scenario) (e : ExamplesTable) (index row step : Nat) : Option String :=
  (render s e index row).bind fun c => c.scenario.steps[step]?.map (·.text)

variable {tree outline table : Draft} {s : Scenario} {e : ExamplesTable} {column step : Nat}
  {name front back : String}

theorem LoadedOutline.steps_text (h : LoadedOutline tree outline s table e) :
    s.steps.map (·.text) = stepTexts outline := by
  obtain ⟨doc, hLoad, hMem⟩ := h.document
  exact (Load.scenario_parts (List.forall₂_zip (Load.document_scenarios hLoad) hMem)).1

theorem LoadedOutline.parameterNames (h : LoadedOutline tree outline s table e) :
    e.parameterNames = (headers table).map rawForm := by
  obtain ⟨doc, hLoad, hMem⟩ := h.document
  have hParts := Load.scenario_parts (List.forall₂_zip (Load.document_scenarios hLoad) hMem)
  exact Load.parameterNames_eq (List.forall₂_zip hParts.2 h.table)

theorem LoadedOutline.renderedText (h : LoadedOutline tree outline s table e) {row : Nat} {r : Row}
    (hRow : e.tableBody[row]? = some r) (index step : Nat) :
    renderedText s e index row step =
      (stepTexts outline)[step]?.map (substitute (parameters e r)) := by
  rw [Outline.renderedText, render, hRow, ← h.steps_text, List.getElem?_map, Option.map_map]
  show ((s.steps.map (renderStep (parameters e r)))[step]?).map _ = _
  rw [List.getElem?_map, Option.map_map]
  rfl

theorem NamedAsWritten.substitute (h : NamedAsWritten outline table column step name front back) :
    substitute ps (front ++ "<" ++ name ++ ">" ++ back) =
      String.ofList (front.toList ++ (filled ps name.toList ++ back.toList)) := by
  have hText : (front ++ "<" ++ name ++ ">" ++ back).toList =
      front.toList ++ (bracketed name.toList ++ back.toList) := by
    simp [bracketed]
  rw [Outline.substitute, hText, substitute_single h.columnName h.front h.back]

/-- A text that is its own raw form has even runs of backslashes only. -/
theorem rawForm_eq_iff {name : String} : rawForm name = name ↔ EvenRuns name.toList := by
  rw [← paired_iff_evenRuns, rawForm, ← String.toList_inj, String.toList_ofList]
  rfl

/-- Every raw form has even runs of backslashes only. -/
theorem evenRuns_rawForm (name : String) : EvenRuns (rawForm name).toList := by
  rw [← paired_iff_evenRuns, rawForm, String.toList_ofList]
  exact pairBackslashes_pairBackslashes name.toList

theorem renderedText_eq_filled (hOutline : LoadedOutline tree outline s table e)
    (hNamed : NamedAsWritten outline table column step name front back)
    {row : Nat} {r : Row} (hRow : e.tableBody[row]? = some r) (index : Nat) :
    renderedText s e index row step = some (String.ofList
      (front.toList ++ (filled (parameters e r) name.toList ++ back.toList))) := by
  rw [hOutline.renderedText hRow, hNamed.step, Option.map_some, hNamed.substitute]

theorem LoadedOutline.parameters (hOutline : LoadedOutline tree outline s table e) (r : Row) :
    parameters e r = ((headers table).map rawForm).zip r.values := by
  rw [Outline.parameters, hOutline.parameterNames]

/-- No column has a name with an odd run, so the placeholder stays. -/
theorem renderedText_of_odd (hOutline : LoadedOutline tree outline s table e)
    (hNamed : NamedAsWritten outline table column step name front back)
    {row : Nat} {r : Row} (hRow : e.tableBody[row]? = some r) (hOdd : ¬ EvenRuns name.toList)
    (index : Nat) :
    renderedText s e index row step = some (front ++ "<" ++ name ++ ">" ++ back) := by
  have hMissing : (Outline.parameters e r).get? (String.ofList name.toList) = none := by
    rw [hOutline.parameters, String.ofList_toList]
    refine get?_zip_eq_none fun hMem => ?_
    obtain ⟨other, -, rfl⟩ := List.mem_map.mp hMem
    exact hOdd (evenRuns_rawForm other)
  rw [renderedText_eq_filled hOutline hNamed hRow, filled, hMissing]
  simp [bracketed, String.append_assoc]

/-- A header with even runs is the name of its column, and of no other one in front of it. -/
theorem renderedText_of_even (hOutline : LoadedOutline tree outline s table e)
    (hNamed : NamedAsWritten outline table column step name front back)
    {row : Nat} {r : Row} (hRow : e.tableBody[row]? = some r) (hEven : EvenRuns name.toList)
    (hFirst : ∀ j < column, ∀ other ∈ (headers table)[j]?, rawForm other ≠ name) {value : String}
    (hValue : r.values[column]? = some value) (index : Nat) :
    renderedText s e index row step = some (front ++ value ++ back) := by
  have hFound : (Outline.parameters e r).get? (String.ofList name.toList) = some value := by
    rw [hOutline.parameters, String.ofList_toList]
    refine get?_zip_of_first ?_ (fun j hj hOther => ?_) hValue
    · rw [List.getElem?_map, hNamed.header, Option.map_some, rawForm_eq_iff.mpr hEven]
    · rw [List.getElem?_map] at hOther
      obtain ⟨other, hThere, hEq⟩ := Option.map_eq_some_iff.mp hOther
      exact hFirst j hj other hThere hEq
  rw [renderedText_eq_filled hOutline hNamed hRow, filled, hFound]
  simp [String.append_assoc]

/-! ### An outline with one column -/

def placeTree : Draft := .obj [("line", .int 1), ("column", .int 1)] none

def rowTree (cell : String) : Draft :=
  .obj [("id", .str "0"), ("location", placeTree),
    ("cells", .arr [.obj [("location", placeTree), ("value", .str cell)] none] none)] none

/-- The tree of a table of examples with one column and one row. -/
def tableTree (header value : String) : Draft :=
  .obj [("id", .str "1"), ("location", placeTree), ("tableHeader", rowTree header),
    ("tableBody", .arr [rowTree value] none)] none

def stepTree (text : String) : Draft :=
  .obj [("id", .str "2"), ("location", placeTree), ("keyword", .str "Given"),
    ("keywordType", .str "Context"), ("text", .str text)] none

/-- The tree of an outline with one step and the table. -/
def outlineTree (text header value : String) : Draft :=
  .obj [("id", .str "3"), ("location", placeTree), ("tags", .arr [] none),
    ("keyword", .str "Scenario Outline"), ("name", .str "paths"), ("description", .str ""),
    ("steps", .arr [stepTree text] none), ("examples", .arr [tableTree header value] none)] none

/-- The tree of a document with the outline. -/
def documentTree (text header value : String) : Draft :=
  .obj [("feature", .obj [("location", placeTree), ("tags", .arr [] none), ("language", .str "en"),
    ("keyword", .str "Feature"), ("name", .str "files"), ("description", .str ""),
    ("children", .arr [.obj [("scenario", outlineTree text header value)] none] none)] none)] none

/-- What a row with one cell is loaded as. -/
def loadedRow (cell : String) : Row := ⟨"0", ⟨1, 1⟩, [⟨⟨1, 1⟩, rawForm cell⟩]⟩

/-- What the table is loaded as. -/
def loadedTable (header value : String) : ExamplesTable :=
  ⟨"1", ⟨1, 1⟩, [], "", none, "", some (loadedRow header), [loadedRow value]⟩

/-- What the outline is loaded as. -/
def loadedOutline (text header value : String) : Scenario :=
  ⟨"3", ⟨1, 1⟩, [], "Scenario Outline", "paths", "",
    [⟨"2", ⟨1, 1⟩, "Given", .context, text, none, none⟩], [loadedTable header value]⟩

theorem load_placeTree : Load.location placeTree = .ok ⟨1, 1⟩ := by decide

theorem load_rowTree (cell : String) : Load.row (rowTree cell) = .ok (loadedRow cell) := by
  have hCell : Load.cell (.obj [("location", placeTree), ("value", .str cell)] none) =
      .ok ⟨⟨1, 1⟩, rawForm cell⟩ := by
    simp [Load.cell, Load.changed, rawForm, load_placeTree]
  simp [Load.row, rowTree, loadedRow, Load.list, load_placeTree, hCell]

theorem load_tableTree (header value : String) :
    Load.examplesTable (tableTree header value) = .ok (loadedTable header value) := by
  have hHeader := Load.optional_eq_ok (by simp [rowTree]) (load_rowTree header)
  simp [Load.examplesTable, tableTree, loadedTable, Load.list, load_placeTree, load_rowTree,
    hHeader]

theorem load_outlineTree (text header value : String) :
    Load.scenario (outlineTree text header value) = .ok (loadedOutline text header value) := by
  have hKeyword : Load.changed trim (.str "Given") = .ok "Given" := by decide
  have hType : Load.keywordType (.str "Context") = .ok .context := by decide
  have hStep : Load.step (stepTree text) =
      .ok ⟨"2", ⟨1, 1⟩, "Given", .context, text, none, none⟩ := by
    simp [Load.step, stepTree, load_placeTree, hKeyword, hType]
  simp [Load.scenario, outlineTree, loadedOutline, Load.list, load_placeTree, load_tableTree, hStep]

theorem loadedOutline_tree (text header value : String) :
    LoadedOutline (documentTree text header value) (outlineTree text header value)
      (loadedOutline text header value) (tableTree header value) (loadedTable header value) := by
  have hChild : Load.featureChild (.obj [("scenario", outlineTree text header value)] none) =
      .ok (.scenario (loadedOutline text header value)) := by
    simp [Load.featureChild, Load.taggedVariant, Load.variant, load_outlineTree]
  have hFeature : Load.document (documentTree text header value) =
      .ok ⟨⟨⟨1, 1⟩, [], "en", "Feature", "files", "",
        [.scenario (loadedOutline text header value)]⟩, []⟩ := by
    simp [Load.document, Load.feature, documentTree, Load.list, load_placeTree, hChild]
  exact ⟨⟨_, hFeature, .head _⟩, .head _⟩

/-! ### Columns in general -/

/-- **A column that is named as it is written** is replaced by its value when its header has even
runs of backslashes only, unless the raw form of an earlier header is the same.  With an odd run the
placeholder stays. -/
theorem render_named_as_written (hOutline : LoadedOutline tree outline s table e)
    (hNamed : NamedAsWritten outline table column step name front back)
    {row : Nat} {r : Row} (hRow : e.tableBody[row]? = some r)
    (hWidth : r.cells.length = (headers table).length) (index : Nat) :
    ∃ value, r.values[column]? = some value ∧
      (EvenRuns name.toList →
        (∀ j < column, ∀ other ∈ (headers table)[j]?, rawForm other ≠ name) →
        renderedText s e index row step = some (front ++ value ++ back)) ∧
      (¬ EvenRuns name.toList →
        renderedText s e index row step = some (front ++ "<" ++ name ++ ">" ++ back)) := by
  have hColumn : column < r.values.length := by
    obtain ⟨hLt, -⟩ := List.getElem?_eq_some_iff.mp hNamed.header
    rw [Row.values, List.length_map, hWidth]
    exact hLt
  have hValue : r.values[column]? = some r.values[column] := List.getElem?_eq_getElem hColumn
  exact ⟨_, hValue,
    fun hEven hFirst => renderedText_of_even hOutline hNamed hRow hEven hFirst hValue index,
    fun hOdd => renderedText_of_odd hOutline hNamed hRow hOdd index⟩

/-- A header with two backslashes side by side is found. -/
theorem render_finds_double_backslash :
    LoadedOutline (documentTree "open <a\\\\b> now" "a\\\\b" "1")
        (outlineTree "open <a\\\\b> now" "a\\\\b" "1")
        (loadedOutline "open <a\\\\b> now" "a\\\\b" "1")
        (tableTree "a\\\\b" "1") (loadedTable "a\\\\b" "1") ∧
      NamedAsWritten (outlineTree "open <a\\\\b> now" "a\\\\b" "1") (tableTree "a\\\\b" "1") 0 0
        "a\\\\b" "open " " now" ∧
      renderedText (loadedOutline "open <a\\\\b> now" "a\\\\b" "1") (loadedTable "a\\\\b" "1")
        0 0 0 = some "open 1 now" := by
  have hOutline := loadedOutline_tree "open <a\\\\b> now" "a\\\\b" "1"
  have hNamed : NamedAsWritten (outlineTree "open <a\\\\b> now" "a\\\\b" "1")
      (tableTree "a\\\\b" "1") 0 0 "a\\\\b" "open " " now" :=
    ⟨rfl, ⟨by decide, by decide, by decide, (Option.any_eq_false _ _).mp (by decide)⟩, rfl,
      by decide, by decide⟩
  have hRow : (loadedTable "a\\\\b" "1").tableBody[0]? = some (loadedRow "1") := rfl
  obtain ⟨value, hValue, hEven, -⟩ := render_named_as_written hOutline hNamed hRow rfl 0
  obtain rfl := Option.some.inj hValue
  refine ⟨hOutline, hNamed, hEven ?_ fun j hj => absurd hj (Nat.not_lt_zero j)⟩
  rw [← paired_iff_evenRuns]
  unfold Paired
  decide

/-- **Not every column that is named as it is written is replaced**: a header with one backslash is
loaded with two, and the placeholder with one is none of a column. -/
theorem render_misses_single_backslash :
    ¬ ∀ (tree outline table : Draft) (s : Scenario) (e : ExamplesTable) (row : Nat) (r : Row)
      (column step : Nat) (name front back value : String),
      LoadedOutline tree outline s table e → e.tableBody[row]? = some r →
      r.cells.length = (headers table).length →
      NamedAsWritten outline table column step name front back →
      (∀ j, j ≠ column → (headers table)[j]? ≠ some name) → r.values[column]? = some value →
      ∀ index, renderedText s e index row step = some (front ++ value ++ back) := by
  intro hAll
  have hOutline := loadedOutline_tree "open <a\\b>" "a\\b" "1"
  have hNamed : NamedAsWritten (outlineTree "open <a\\b>" "a\\b" "1") (tableTree "a\\b" "1") 0 0
      "a\\b" "open " "" :=
    ⟨rfl, ⟨by decide, by decide, by decide, (Option.any_eq_false _ _).mp (by decide)⟩, rfl,
      by decide, by decide⟩
  have hOther : ∀ j, j ≠ 0 → (headers (tableTree "a\\b" "1"))[j]? ≠ some "a\\b" := by
    intro j hj
    obtain ⟨j, rfl⟩ := Nat.exists_eq_succ_of_ne_zero hj
    exact (Option.some_ne_none _).symm
  have hOdd : ¬ EvenRuns "a\\b".toList := by
    rw [← paired_iff_evenRuns]
    unfold Paired
    decide
  have hRow : (loadedTable "a\\b" "1").tableBody[0]? = some (loadedRow "1") := rfl
  have hStays := renderedText_of_odd hOutline hNamed hRow hOdd 0
  have hReplaced := hAll _ _ _ _ _ _ _ _ _ _ _ _ "1" hOutline hRow rfl hNamed hOther rfl 0
  rw [hStays] at hReplaced
  exact absurd (Option.some.inj hReplaced) (by decide)

end Scenarist.Outline
