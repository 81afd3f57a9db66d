import Mathlib.Data.List.Forall2
import Scenarist.Outline.Expansion

/-!
# The scenarios of an outline

Every row of the examples of an outline gives one concrete scenario.  `InstanceOf` says which parts of
the outline it keeps and which are filled with the values of the row, and `rowPlaces` lists the rows
as pairs of the index of a table and the index of a row.

* `instanceOf_renderRow`: the scenario of a row is an instance of the outline.
* `pairwise_rowPlaces`, `mem_rowPlaces`: every row is listed once, table by table.
* `expand_row_by_row`: the concrete scenarios are the instances of the rows in this order.
-/

namespace Scenarist

namespace Outline

/-! ### What a row fills in -/

/-- A cell with the values of a row in place of its placeholders. -/
structure FilledCell (ps : Parameters) (c filled : Cell) : Prop where
  location : filled.location = c.location
  value : filled.value = substitute ps c.value

structure FilledRow (ps : Parameters) (r filled : Row) : Prop where
  id : filled.id = r.id
  location : filled.location = r.location
  cells : List.Forall₂ (FilledCell ps) r.cells filled.cells

structure FilledTable (ps : Parameters) (t filled : DataTable) : Prop where
  location : filled.location = t.location
  rows : List.Forall₂ (FilledRow ps) t.rows filled.rows

/-- A step that differs from its template in the text and in the values of cells only. -/
structure FilledStep (ps : Parameters) (s filled : Step) : Prop where
  id : filled.id = s.id
  location : filled.location = s.location
  keyword : filled.keyword = s.keyword
  keywordType : filled.keywordType = s.keywordType
  text : filled.text = substitute ps s.text
  dataTable : Option.Rel (FilledTable ps) s.dataTable filled.dataTable
  docString : filled.docString = s.docString

/-- A concrete scenario that is an outline with the values of a row of examples. It knows the place
of the row, and it differs from the outline in its tags, steps and examples only. -/
structure InstanceOf (s : Scenario) (e : ExamplesTable) (r : Row) (place : Nat × Nat)
    (c : ConcreteScenario) : Prop where
  origin : c.origin = some ⟨place.1, place.2, e.parameterNames.zip r.values⟩
  id : c.scenario.id = s.id
  location : c.scenario.location = s.location
  keyword : c.scenario.keyword = s.keyword
  name : c.scenario.name = s.name
  description : c.scenario.description = s.description
  steps : List.Forall₂ (FilledStep (e.parameterNames.zip r.values)) s.steps c.scenario.steps
  examples : c.scenario.examples = []

theorem filledTable_renderTable (ps : Parameters) (t : DataTable) :
    FilledTable ps t (renderTable ps t) := by
  refine ⟨rfl, List.forall₂_map_right_iff.mpr (List.forall₂_same.mpr fun r _ => ?_)⟩
  exact ⟨rfl, rfl, List.forall₂_map_right_iff.mpr (List.forall₂_same.mpr fun c _ => ⟨rfl, rfl⟩)⟩

theorem filledStep_renderStep (ps : Parameters) (s : Step) : FilledStep ps s (renderStep ps s) where
  id := rfl
  location := rfl
  keyword := rfl
  keywordType := rfl
  text := rfl
  dataTable := by
    show Option.Rel (FilledTable ps) s.dataTable (s.dataTable.map (renderTable ps))
    cases s.dataTable with
    | none => exact .none
    | some t => exact .some (filledTable_renderTable ps t)
  docString := rfl

theorem mem_or_mem_of_mem_tagUnion {tags extra : List Tag} {t : Tag}
    (h : t ∈ tagUnion tags extra) : t ∈ tags ∨ t ∈ extra := by
  induction extra generalizing tags with
  | nil => exact .inl h
  | cons first extra ih =>
    rw [tagUnion, List.foldl_cons] at h
    rcases ih h with hTags | hExtra
    · split at hTags
      · exact .inl hTags
      · rcases List.mem_append.mp hTags with hTags | hFirst
        · exact .inl hTags
        · rw [List.mem_singleton.mp hFirst]
          exact .inr List.mem_cons_self
    · exact .inr (List.mem_cons_of_mem first hExtra)

/-- **The scenario of a row is an instance of the outline.** -/
theorem instanceOf_renderRow (s : Scenario) (e : ExamplesTable) (r : Row) (table row : Nat) :
    InstanceOf s e r (table, row) (renderRow s e table row r) where
  origin := rfl
  id := rfl
  location := rfl
  keyword := rfl
  name := rfl
  description := rfl
  steps := List.forall₂_map_right_iff.mpr
    (List.forall₂_same.mpr fun step _ => filledStep_renderStep _ step)
  examples := rfl

end Outline

namespace Scenario

open Outline

/-! ### The rows of an outline -/

/-- The places of all rows of examples: the index of a table and the index of a row in it. -/
def rowPlaces (s : Scenario) : List (Nat × Nat) :=
  s.examples.zipIdx.flatMap fun (e, table) =>
    (List.range e.tableBody.length).map fun row => (table, row)

/-- A concrete scenario is the instance of the row at a place. -/
def HasInstance (s : Scenario) (place : Nat × Nat) (c : ConcreteScenario) : Prop :=
  ∃ e r, s.examples[place.1]? = some e ∧ e.tableBody[place.2]? = some r ∧
    InstanceOf s e r place c

theorem mem_rowPlaces {s : Scenario} {table row : Nat} :
    (table, row) ∈ s.rowPlaces ↔
      ∃ e, s.examples[table]? = some e ∧ row < e.tableBody.length := by
  constructor
  · intro h
    obtain ⟨⟨e, i⟩, he, hRow⟩ := List.mem_flatMap.mp h
    obtain ⟨j, hj, hEq⟩ := List.mem_map.mp hRow
    obtain ⟨rfl, rfl⟩ := Prod.mk.inj hEq
    exact ⟨e, List.mem_zipIdx_iff_getElem?.mp he, List.mem_range.mp hj⟩
  · rintro ⟨e, he, hRow⟩
    exact List.mem_flatMap.mpr ⟨(e, table), List.mem_zipIdx_iff_getElem?.mpr he,
      List.mem_map.mpr ⟨row, List.mem_range.mpr hRow, rfl⟩⟩

/-- The tables are numbered upwards. -/
theorem pairwise_snd_zipIdx {α : Type} (l : List α) : l.zipIdx.Pairwise fun a b => a.2 < b.2 := by
  have hNumbers : (l.zipIdx.map Prod.snd).Pairwise (· < ·) := by
    rw [List.zipIdx_map_snd]
    exact List.pairwise_lt_range'
  exact List.pairwise_map.mp hNumbers

/-- The numbers of the elements of a list. -/
theorem range_length_eq_map_snd {α : Type} (l : List α) :
    List.range l.length = l.zipIdx.map Prod.snd := by
  rw [List.zipIdx_map_snd, List.range_eq_range']

theorem pairwise_rowPlaces (s : Scenario) :
    s.rowPlaces.Pairwise (Prod.Lex (· < ·) (· < ·)) := by
  rw [rowPlaces, List.pairwise_flatMap]
  refine ⟨fun e _ => ?_, (pairwise_snd_zipIdx s.examples).imp fun hTables p hp q hq => ?_⟩
  · rw [List.pairwise_map]
    exact List.pairwise_lt_range.imp fun hRows => .right _ hRows
  · obtain ⟨i, _, rfl⟩ := List.mem_map.mp hp
    obtain ⟨j, _, rfl⟩ := List.mem_map.mp hq
    exact .left _ _ hTables

theorem expand_of_examples_eq_nil {s : Scenario} (h : s.examples = []) :
    s.expand = [⟨s, none⟩] := by
  rw [expand, isTemplated, h]
  rfl

/-- A concrete scenario is the scenario itself or comes from a row of its examples. -/
theorem eq_renderRow_of_mem_expand {s : Scenario} {c : ConcreteScenario} (hc : c ∈ s.expand) :
    c = ⟨s, none⟩ ∨ ∃ table row e r, s.examples[table]? = some e ∧
      e.tableBody[row]? = some r ∧ c = renderRow s e table row r := by
  unfold expand at hc
  split at hc
  · obtain ⟨⟨e, table⟩, he, hc⟩ := List.mem_flatMap.mp hc
    obtain ⟨⟨r, row⟩, hr, rfl⟩ := List.mem_map.mp hc
    exact .inr ⟨table, row, e, r, List.mem_zipIdx_iff_getElem?.mp he,
      List.mem_zipIdx_iff_getElem?.mp hr, rfl⟩
  · exact .inl (List.mem_singleton.mp hc)

/-- The tags of a concrete scenario are tags of the scenario or of the table that its row is in. -/
theorem tags_of_mem_expand {s : Scenario} {c : ConcreteScenario} (hc : c ∈ s.expand) :
    ∀ t ∈ c.scenario.tags, t ∈ s.tags ∨
      ∃ row ∈ c.origin, ∃ e, s.examples[row.tableIndex]? = some e ∧ t ∈ e.tags := by
  intro t ht
  rcases eq_renderRow_of_mem_expand hc with rfl | ⟨table, row, e, r, he, -, rfl⟩
  · exact .inl ht
  · rcases mem_or_mem_of_mem_tagUnion ht with ht | ht
    · exact .inl ht
    · exact .inr ⟨_, rfl, e, he, ht⟩

/-- The concrete scenarios of an outline are the instances of its rows, row by row. -/
theorem forall₂_expand {s : Scenario} (h : s.examples ≠ []) :
    List.Forall₂ s.HasInstance s.rowPlaces s.expand := by
  have hTemplated : s.isTemplated = true := by simpa [isTemplated] using h
  rw [expand, if_pos hTemplated, rowPlaces]
  refine List.rel_flatMap (R := fun x y => x = y ∧ x ∈ s.examples.zipIdx)
    (List.forall₂_same.mpr fun x hx => ⟨rfl, hx⟩) ?_
  rintro ⟨e, table⟩ - ⟨rfl, he⟩
  have hTable := List.mem_zipIdx_iff_getElem?.mp he
  -- The rows of the table are counted in the same way on both sides.
  show List.Forall₂ s.HasInstance ((List.range e.tableBody.length).map fun row => (table, row)) _
  rw [range_length_eq_map_snd, List.map_map, List.forall₂_map_left_iff, List.forall₂_map_right_iff,
    List.forall₂_same]
  rintro ⟨r, row⟩ hr
  exact ⟨e, r, hTable, List.mem_zipIdx_iff_getElem?.mp hr, instanceOf_renderRow s e r table row⟩

/-- **The concrete scenarios of a scenario.**  A scenario without examples is its own concrete
scenario.  The concrete scenarios of an outline are one instance for each row of its examples, table
by table and row by row: the places of the rows ascend, all rows are among them, and the instances
stand in their order. -/
theorem expand_row_by_row (s : Scenario) :
    (s.examples = [] → s.expand = [⟨s, none⟩]) ∧
    (s.examples ≠ [] →
      s.rowPlaces.Pairwise (Prod.Lex (· < ·) (· < ·)) ∧
      (∀ table row, (table, row) ∈ s.rowPlaces ↔
        ∃ e, s.examples[table]? = some e ∧ row < e.tableBody.length) ∧
      List.Forall₂ s.HasInstance s.rowPlaces s.expand) :=
  ⟨expand_of_examples_eq_nil, fun h =>
    ⟨s.pairwise_rowPlaces, fun _ _ => mem_rowPlaces, forall₂_expand h⟩⟩

end Scenario

end Scenarist
