import Scenarist.Document.Table
import Scenarist.Outline.Expansion
import Scenarist.Proofs.Document.Reload
import Scenarist.Proofs.Outline.Instances
import Scenarist.Proofs.Outline.Placeholders
import Scenarist.Proofs.Text.Backslash

/-!
# Expanded scenarios that are read back

A scenario that was loaded is normal, and so is every scenario that it expands to.  The one thing to
see is that cells stay raw: placeholders are cut out at brackets, where no run of backslashes is cut
in two, and the values that are put in are raw themselves.

* `paired_substituteChars`: raw values in a raw text give a raw text.
* `Scenario.Normal.expand`: what a normal scenario expands to is normal.
* `expand_reloads`: the cells of an expanded scenario have even runs of backslashes only, and the
  scenario is loaded from what is written of it.
-/

namespace Scenarist

namespace Outline

open Text

/-! ### Texts -/

theorem Parameters.mem_of_get? {ps : Parameters} {name value : String}
    (h : ps.get? name = some value) : ∃ p ∈ ps, p.2 = value := by
  obtain ⟨p, hFind, hValue⟩ := Option.map_eq_some_iff.mp h
  exact ⟨p, List.mem_of_find?_eq_some hFind, hValue⟩

/-- **Raw values in a raw text give a raw text.**  What stands in front of the place that the scan
has come to may end within a pair of backslashes, so that only both together are raw. -/
theorem paired_substituteChars {ps : Parameters} (hValues : ∀ p ∈ ps, Paired p.2.toList)
    (front s : List Char) (h : Paired (front ++ s)) : Paired (front ++ substituteChars ps s) := by
  fun_induction substituteChars ps s generalizing front with
  | case1 => exact h
  | case2 rest hNone ih =>
    obtain ⟨hFront, hRest⟩ := (paired_append_cons_iff (by decide)).mp h
    exact (paired_append_cons_iff (by decide)).mpr ⟨hFront, ih [] hRest⟩
  | case3 rest name after hSome ih =>
    obtain ⟨rfl, _, _⟩ := of_placeholder?_eq_some hSome
    obtain ⟨hFront, hRest⟩ := (paired_append_cons_iff (by decide)).mp h
    obtain ⟨hName, hAfter⟩ := (paired_append_cons_iff (by decide)).mp hRest
    refine hFront.append (Paired.append ?_ (ih [] hAfter))
    split
    · next value hValue =>
      obtain ⟨p, hMem, rfl⟩ := Parameters.mem_of_get? hValue
      exact hValues p hMem
    · have hClosed : Paired (name ++ ['>']) :=
        (paired_append_cons_iff (by decide)).mpr ⟨hName, rfl⟩
      exact (paired_cons_iff (by decide)).mpr hClosed
  | case4 c rest hc ih =>
    rw [List.append_cons] at h ⊢
    exact ih _ h

/-! ### Nodes -/

theorem paired_values {r : Row} (h : r.Normal) : ∀ v ∈ r.values, Paired v.toList := by
  intro v hv
  obtain ⟨c, hc, rfl⟩ := List.mem_map.mp hv
  exact (h.cells c hc).value

theorem paired_parameters {e : ExamplesTable} {r : Row} (h : r.Normal) :
    ∀ p ∈ parameters e r, Paired p.2.toList :=
  fun _ hp => paired_values h _ (List.of_mem_zip hp).2

theorem normal_renderTable {ps : Parameters} (hValues : ∀ p ∈ ps, Paired p.2.toList)
    {t : DataTable} (h : t.Normal) : (renderTable ps t).Normal := by
  refine ⟨h.location, fun row hRow => ?_⟩
  obtain ⟨r, hr, rfl⟩ := List.mem_map.mp hRow
  refine ⟨(h.rows r hr).location, fun cell hCell => ?_⟩
  obtain ⟨c, hc, rfl⟩ := List.mem_map.mp hCell
  have hNormal := (h.rows r hr).cells c hc
  refine ⟨hNormal.location, ?_⟩
  show Paired (substitute ps c.value).toList
  rw [substitute, String.toList_ofList]
  exact paired_substituteChars hValues [] _ hNormal.value

theorem normal_renderStep {ps : Parameters} (hValues : ∀ p ∈ ps, Paired p.2.toList) {s : Step}
    (h : s.Normal) : (renderStep ps s).Normal := by
  refine ⟨h.location, h.keyword, fun t ht => ?_, h.docString⟩
  obtain ⟨t, hTable, rfl⟩ := Option.map_eq_some_iff.mp ht
  exact normal_renderTable hValues (h.dataTable t hTable)

theorem normal_renderRow {s : Scenario} {e : ExamplesTable} {r : Row} (h : s.Normal)
    (hTable : e.Normal) (hRow : r.Normal) (table row : Nat) :
    (renderRow s e table row r).scenario.Normal where
  location := h.location
  tags := by
    intro t ht
    rcases mem_or_mem_of_mem_tagUnion ht with ht | ht
    · exact h.tags t ht
    · exact hTable.tags t ht
  steps := by
    intro step hStep
    obtain ⟨t, ht, rfl⟩ := List.mem_map.mp hStep
    exact normal_renderStep (paired_parameters hRow) (h.steps t ht)
  examples := fun e he => absurd he List.not_mem_nil

end Outline

/-! ### Scenarios -/

/-- **What a normal scenario expands to is normal.** -/
theorem Scenario.Normal.expand {s : Scenario} (h : s.Normal) {c : ConcreteScenario}
    (hc : c ∈ s.expand) : c.scenario.Normal := by
  rcases Scenario.eq_renderRow_of_mem_expand hc with rfl | ⟨table, row, e, r, he, hr, rfl⟩
  · exact h
  · have hTable : e.Normal := h.examples e (List.mem_of_getElem? he)
    exact Outline.normal_renderRow h hTable (hTable.tableBody r (List.mem_of_getElem? hr)) table row

/-- The scenario was loaded from a tree: by itself, or as part of a document, under its feature or
under one of its rules. -/
inductive Scenario.Loaded (s : Scenario) : Prop
  | alone {tree : Draft} (load : Load.scenario tree = .ok s)
  | inFeature {tree : Draft} {d : Document} (load : Load.document tree = .ok d)
      (mem : FeatureChild.scenario s ∈ d.feature.children)
  | inRule {tree : Draft} {d : Document} {r : Rule} (load : Load.document tree = .ok d)
      (rule : FeatureChild.rule r ∈ d.feature.children)
      (mem : RuleChild.scenario s ∈ r.children)

theorem Scenario.Loaded.normal {s : Scenario} (h : s.Loaded) : s.Normal := by
  cases h with
  | alone load => exact Load.codec_scenario.normal load
  | inFeature load mem => exact (Load.codec_document.normal load).feature.children _ mem
  | inRule load rule mem =>
    have hRule : Rule.Normal _ := (Load.codec_document.normal load).feature.children _ rule
    exact hRule.children _ mem

/-- **A scenario that was loaded expands to scenarios that are read back.**  Every run of backslashes
in a cell has even length, so that the cell is loaded as it is; and the whole scenario is loaded
again from what is written of it. -/
theorem expand_reloads {s : Scenario} (h : s.Loaded) {c : ConcreteScenario} (hc : c ∈ s.expand) :
    (∀ step ∈ c.scenario.steps, ∀ t ∈ step.dataTable, ∀ row ∈ t.rows, ∀ cell ∈ row.cells,
      Text.EvenRuns cell.value.toList ∧ Load.cell cell.toJson.draft = .ok cell) ∧
    Load.scenario c.scenario.toJson.draft = .ok c.scenario := by
  have hNormal : c.scenario.Normal := h.normal.expand hc
  refine ⟨fun step hStep t ht row hRow cell hCell => ?_, Load.codec_scenario.reload hNormal⟩
  have hRowNormal : row.Normal := ((hNormal.steps step hStep).dataTable t ht).rows row hRow
  have hThis : cell.Normal := hRowNormal.cells cell hCell
  exact ⟨Text.paired_iff_evenRuns.mp hThis.value, Load.codec_cell.reload hThis⟩

/-! A placeholder between backslashes, for a value that is a backslash. -/

def backslashTree : Json :=
  let location : Json := .obj [("column", .int 1), ("line", .int 1)]
  let row (value : String) : Json := .obj [
    ("cells", .arr [.obj [("location", location), ("value", .str value)]]), ("id", .str "r"),
    ("location", location)]
  .obj [("description", .str ""),
    ("examples", .arr [.obj [("id", .str "e"), ("location", location),
      ("tableBody", .arr [row "\\"]), ("tableHeader", row "a")]]),
    ("id", .str "s"), ("keyword", .str "Scenario Outline"), ("location", location),
    ("name", .str ""),
    ("steps", .arr [.obj [
      ("dataTable", .obj [("location", location), ("rows", .arr [row "\\<a>\\"])]),
      ("id", .str "t"), ("keyword", .str "Given"), ("keywordType", .str "Context"),
      ("location", location), ("text", .str "a table")]]),
    ("tags", .arr [])]

/-- A row of one cell. -/
def cellRow (value : String) : Row := ⟨"r", ⟨1, 1⟩, [⟨⟨1, 1⟩, value⟩]⟩

def backslashExamples : ExamplesTable :=
  ⟨"e", ⟨1, 1⟩, [], "", none, "", some (cellRow "a"), [cellRow "\\\\"]⟩

/-- The scenario that the tree loads as. -/
def backslashOutline : Scenario :=
  ⟨"s", ⟨1, 1⟩, [], "Scenario Outline", "", "",
    [⟨"t", ⟨1, 1⟩, "Given", .context, "a table", some ⟨⟨1, 1⟩, [cellRow "\\\\<a>\\\\"]⟩, none⟩],
    [backslashExamples]⟩

theorem expand_reloads_backslashes :
    let c := Outline.renderRow backslashOutline backslashExamples 0 0 (cellRow "\\\\")
    Load.scenario backslashTree.draft = .ok backslashOutline ∧ c ∈ backslashOutline.expand ∧
      c.scenario.steps.map (·.dataTable.map DataTable.values) = [some [["\\\\\\\\\\\\"]]] ∧
      (∀ step ∈ c.scenario.steps, ∀ t ∈ step.dataTable, ∀ row ∈ t.rows, ∀ cell ∈ row.cells,
        Text.EvenRuns cell.value.toList ∧ Load.cell cell.toJson.draft = .ok cell) ∧
      Load.scenario c.scenario.toJson.draft = .ok c.scenario := by
  intro c
  have hLoad : Load.scenario backslashTree.draft = .ok backslashOutline := by decide +kernel
  have hMem : c ∈ backslashOutline.expand := List.mem_singleton.mpr rfl
  have hCell : c.scenario.steps.map (·.dataTable.map DataTable.values) =
      [some [["\\\\\\\\\\\\"]]] := by decide +kernel
  exact ⟨hLoad, hMem, hCell, expand_reloads (.alone hLoad) hMem⟩

end Scenarist
