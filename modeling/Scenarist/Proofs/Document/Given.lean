import Scenarist.Document.Load
import Scenarist.Proofs.Json.Record
import Scenarist.Text.Backslash

/-!
# Trees of documents as they are given

What the tree of a document says of its outlines, read from the tree as it is, next to what is
loaded from it.  The texts of steps are kept; the cells of tables are brought into raw form.

* `forall₂_of_require`, `forall₂_of_orElse`: a list that is loaded has one element for each item.
* `steps_text`: the texts of the steps of a scenario.
* `parameterNames_eq`: the names of the columns are the raw forms of the header.
* `document_scenarios`: the scenarios of a document, in order, with those of its rules.
-/

namespace Scenarist

/-! ### Fields -/

namespace Draft

/-- A field of a record: of an object by its name, of an array by the place of the name. -/
def field? (fields : List String) (name : String) : Draft → Option Draft
  | .obj entries _ => (entries.find? fun e => e.1 = name).map (·.2)
  | .arr items _ => ((fields.zip items).find? fun e => e.1 = name).map (·.2)
  | _ => none

def items : Draft → List Draft
  | .arr items _ => items
  | _ => []

/-- The items of a field; none if it is not there. -/
def fieldItems (fields : List String) (name : String) (d : Draft) : List Draft :=
  ((d.field? fields name).map items).getD []

def chars : Draft → String
  | .str s => s
  | _ => ""

/-- The text of a field. -/
def fieldText (fields : List String) (name : String) (d : Draft) : String :=
  ((d.field? fields name).map chars).getD ""

/-- The content of a variant, if it has the name. -/
def content? (name : String) : Draft → Option Draft
  | .obj [(found, content)] _ => if found = name then some content else none
  | _ => none

end Draft

namespace Load

variable {α : Type} {load : Loader α} {record name : String} {fields : List String} {d : Draft}
  {s : Source}

theorem field?_eq (h : Source.ofDraft record fields d = .ok s) :
    d.field? fields name = (s.entries.find? fun e => e.1 = name).map (·.2) := by
  unfold Source.ofDraft at h
  split at h
  · cases h
    rfl
  · cases h
    rfl
  · exact absurd h unexpected_ne_ok

theorem field_of_require (hSource : Source.ofDraft record fields d = .ok s) {a : α}
    (h : s.require (s.slot name load) = .ok a) :
    ∃ d', d.field? fields name = some d' ∧ load d' = .ok a := by
  obtain ⟨e, hFind, hLoad⟩ := exists_of_require h
  exact ⟨e.2, by rw [field?_eq hSource, hFind]; rfl, hLoad⟩

theorem field_or_missing_of_orElse (hSource : Source.ofDraft record fields d = .ok s)
    {a default : α} (h : (s.slot name load).orElse default = .ok a) :
    (∃ d', d.field? fields name = some d' ∧ load d' = .ok a) ∨
      d.field? fields name = none ∧ a = default := by
  rw [field?_eq hSource]
  rcases exists_or_missing_of_orElse h with ⟨e, hFind, hLoad⟩ | ⟨hFind, rfl⟩
  · exact .inl ⟨e.2, by rw [hFind]; rfl, hLoad⟩
  · exact .inr ⟨by rw [hFind]; rfl, rfl⟩

theorem forall₂_of_list {as : List α} (h : list load d = .ok as) :
    List.Forall₂ (fun t a => load t = .ok a) d.items as := by
  unfold Load.list at h
  split at h
  · obtain ⟨found, hFound, hClose⟩ := bind_eq_ok_iff.mp h
    split at hClose
    · exact absurd hClose (by simp)
    · obtain rfl := Except.ok.inj hClose
      exact mapM_eq_ok_iff.mp hFound
  · exact absurd h unexpected_ne_ok

/-- **A list that is loaded has one element for each item.** -/
theorem forall₂_of_require (hSource : Source.ofDraft record fields d = .ok s) {as : List α}
    (h : s.require (s.slot name (list load)) = .ok as) :
    List.Forall₂ (fun t a => load t = .ok a) (d.fieldItems fields name) as := by
  obtain ⟨d', hField, hLoad⟩ := field_of_require hSource h
  rw [Draft.fieldItems, hField]
  exact forall₂_of_list hLoad

theorem forall₂_of_orElse (hSource : Source.ofDraft record fields d = .ok s) {as : List α}
    (h : (s.slot name (list load)).orElse [] = .ok as) :
    List.Forall₂ (fun t a => load t = .ok a) (d.fieldItems fields name) as := by
  rcases field_or_missing_of_orElse hSource h with ⟨d', hField, hLoad⟩ | ⟨hField, rfl⟩
  · rw [Draft.fieldItems, hField]
    exact forall₂_of_list hLoad
  · rw [Draft.fieldItems, hField]
    exact .nil

theorem map_eq_of_forall₂ {β : Type} {ts : List Draft} {as : List α} {f : Draft → β} {g : α → β}
    (h : List.Forall₂ (fun t a => load t = .ok a) ts as)
    (hEach : ∀ t a, load t = .ok a → g a = f t) : as.map g = ts.map f := by
  induction h with
  | nil => rfl
  | cons hLoad _ ih => rw [List.map_cons, List.map_cons, hEach _ _ hLoad, ih]

theorem text_eq_chars {t : String} (h : text d = .ok t) : t = d.chars := by
  unfold text at h
  split at h
  · exact (Except.ok.inj h).symm
  · exact absurd h unexpected_ne_ok

theorem text_of_require (hSource : Source.ofDraft record fields d = .ok s) {t : String}
    (h : s.require (s.slot name text) = .ok t) : t = d.fieldText fields name := by
  obtain ⟨d', hField, hLoad⟩ := field_of_require hSource h
  rw [Draft.fieldText, hField]
  exact text_eq_chars hLoad

end Load

/-! ### Steps, tables and scenarios -/

namespace Given

/-- The text of a cell in raw form. -/
def rawForm (s : String) : String := String.ofList (Text.pairBackslashes s.toList)

/-- The text of a step. -/
def stepText (step : Draft) : String :=
  step.fieldText
    ["id", "location", "keyword", "keywordType", "text", "dataTable", "docString"] "text"

/-- The texts of the cells of a row. -/
def cellTexts (row : Draft) : List String :=
  (row.fieldItems ["id", "location", "cells"] "cells").map fun cell =>
    cell.fieldText ["location", "value"] "value"

/-- The header of a table of examples. -/
def headers (examples : Draft) : List String :=
  ((examples.field? ["id", "location", "tags", "keyword", "name", "description", "tableHeader",
    "tableBody"] "tableHeader").map cellTexts).getD []

def scenarioFields : List String :=
  ["id", "location", "tags", "keyword", "name", "description", "steps", "examples"]

/-- The texts of the steps of a scenario. -/
def stepTexts (scenario : Draft) : List String :=
  (scenario.fieldItems scenarioFields "steps").map stepText

/-- The tables of examples of a scenario. -/
def examples (scenario : Draft) : List Draft := scenario.fieldItems scenarioFields "examples"

/-- The scenarios of a rule. -/
def ruleScenarios (rule : Draft) : List Draft :=
  (rule.fieldItems ["id", "location", "tags", "keyword", "name", "description", "children"]
    "children").filterMap (Draft.content? "scenario")

/-- The scenarios of a child of a feature. -/
def childScenarios (child : Draft) : List Draft :=
  (child.content? "scenario").toList ++ ((child.content? "rule").map ruleScenarios).getD []

/-- The scenarios of a document, with those of its rules. -/
def scenarios (document : Draft) : List Draft :=
  ((document.field? ["feature", "comments"] "feature").map fun feature =>
    (feature.fieldItems ["location", "tags", "language", "keyword", "name", "description",
      "children"] "children").flatMap childScenarios).getD []

end Given

/-- The scenarios of a child of a feature. -/
def FeatureChild.scenarios : FeatureChild → List Scenario
  | .background _ => []
  | .rule r => r.scenarios
  | .scenario s => [s]

/-- The scenarios of a document, with those of its rules. -/
def Document.scenarios (d : Document) : List Scenario :=
  d.feature.children.flatMap FeatureChild.scenarios

namespace Load

open Given

theorem step_text {d : Draft} {t : Step} (h : step d = .ok t) : t.text = stepText d := by
  simp only [step, bind_eq_ok_iff] at h
  obtain ⟨s, hSource, _, _, id, _, l, _, keyword, _, keywordType, _, content, hContent, dataTable,
    _, docString, _, hEq⟩ := h
  obtain rfl := Except.ok.inj hEq
  exact text_of_require hSource hContent

theorem cell_value {d : Draft} {c : Cell} (h : cell d = .ok c) :
    c.value = rawForm (d.fieldText ["location", "value"] "value") := by
  simp only [cell, bind_eq_ok_iff] at h
  obtain ⟨s, hSource, _, _, l, _, value, hValue, hEq⟩ := h
  obtain rfl := Except.ok.inj hEq
  obtain ⟨d', hField, hLoad⟩ := field_of_require hSource hValue
  obtain ⟨t, hText, hEq⟩ := bind_eq_ok_iff.mp hLoad
  obtain rfl := text_eq_chars hText
  rw [Draft.fieldText, hField]
  exact (Except.ok.inj hEq).symm

theorem row_values {d : Draft} {r : Row} (h : row d = .ok r) :
    r.values = (cellTexts d).map rawForm := by
  simp only [row, bind_eq_ok_iff] at h
  obtain ⟨s, hSource, _, _, id, _, l, _, cells, hCells, hEq⟩ := h
  obtain rfl := Except.ok.inj hEq
  rw [cellTexts, List.map_map]
  exact map_eq_of_forall₂ (forall₂_of_require hSource hCells) fun _ _ => cell_value

/-- **The names of the columns are the raw forms of the header.** -/
theorem parameterNames_eq {d : Draft} {e : ExamplesTable} (h : examplesTable d = .ok e) :
    e.parameterNames = (headers d).map rawForm := by
  simp only [examplesTable, bind_eq_ok_iff] at h
  obtain ⟨s, hSource, _, _, id, _, l, _, tags, _, keyword, _, name, _, description, _, header,
    hHeader, body, _, hEq⟩ := h
  obtain rfl := Except.ok.inj hEq
  rw [headers]
  rcases field_or_missing_of_orElse hSource hHeader with ⟨d', hField, hLoad⟩ | ⟨hField, rfl⟩
  · rw [hField]
    unfold optional at hLoad
    split at hLoad
    · obtain rfl := Except.ok.inj hLoad
      rfl
    · obtain ⟨r, hRow, rfl⟩ := map_eq_ok_iff.mp hLoad
      exact row_values hRow
  · rw [hField]
    rfl

theorem scenario_parts {d : Draft} {t : Scenario} (h : scenario d = .ok t) :
    t.steps.map (·.text) = stepTexts d ∧
      List.Forall₂ (fun d e => examplesTable d = .ok e) (examples d) t.examples := by
  simp only [scenario, bind_eq_ok_iff] at h
  obtain ⟨s, hSource, _, _, id, _, l, _, tags, _, keyword, _, name, _, description, _, steps,
    hSteps, tables, hTables, hEq⟩ := h
  obtain rfl := Except.ok.inj hEq
  exact ⟨map_eq_of_forall₂ (forall₂_of_require hSource hSteps) fun _ _ => step_text,
    forall₂_of_orElse hSource hTables⟩

/-! ### Documents -/

theorem ruleChild_scenario (d : Draft) (c : RuleChild) : ruleChild d = .ok c →
    Option.Rel (fun t s => scenario t = .ok s) (d.content? "scenario")
      (match c with
        | .background _ => none
        | .scenario s => some s) := by
  intro h
  obtain ⟨name, content, load, rfl, hKnown, hLoad⟩ := exists_of_taggedVariant h
  simp only [List.mem_cons, List.not_mem_nil, or_false, Prod.mk.injEq] at hKnown
  rcases hKnown with ⟨rfl, rfl⟩ | ⟨rfl, rfl⟩
  · obtain ⟨b, _, rfl⟩ := map_eq_ok_iff.mp hLoad
    exact .none
  · obtain ⟨s, hs, rfl⟩ := map_eq_ok_iff.mp hLoad
    exact .some hs

theorem rule_scenarios {d : Draft} {r : Rule} (h : rule d = .ok r) :
    List.Forall₂ (fun t s => scenario t = .ok s) (ruleScenarios d) r.scenarios := by
  simp only [rule, bind_eq_ok_iff] at h
  obtain ⟨s, hSource, _, _, id, _, l, _, tags, _, keyword, _, name, _, description, _, children,
    hChildren, hEq⟩ := h
  obtain rfl := Except.ok.inj hEq
  exact List.rel_filterMap ruleChild_scenario (forall₂_of_require hSource hChildren)

theorem featureChild_scenarios {d : Draft} {c : FeatureChild} (h : featureChild d = .ok c) :
    List.Forall₂ (fun t s => scenario t = .ok s) (childScenarios d) c.scenarios := by
  obtain ⟨name, content, load, rfl, hKnown, hLoad⟩ := exists_of_taggedVariant h
  simp only [List.mem_cons, List.not_mem_nil, or_false, Prod.mk.injEq] at hKnown
  rcases hKnown with ⟨rfl, rfl⟩ | ⟨rfl, rfl⟩ | ⟨rfl, rfl⟩
  · obtain ⟨b, _, rfl⟩ := map_eq_ok_iff.mp hLoad
    exact .nil
  · obtain ⟨r, hr, rfl⟩ := map_eq_ok_iff.mp hLoad
    exact rule_scenarios hr
  · obtain ⟨s, hs, rfl⟩ := map_eq_ok_iff.mp hLoad
    exact .cons hs .nil

/-- **The scenarios of a document are loaded from those of its tree, in order.** -/
theorem document_scenarios {d : Draft} {doc : Document} (h : document d = .ok doc) :
    List.Forall₂ (fun t s => scenario t = .ok s) (scenarios d) doc.scenarios := by
  simp only [document, bind_eq_ok_iff] at h
  obtain ⟨s, hSource, _, _, f, hFeature, comments, _, hEq⟩ := h
  obtain rfl := Except.ok.inj hEq
  obtain ⟨tree, hField, hLoad⟩ := field_of_require hSource hFeature
  rw [scenarios, hField]
  simp only [feature, bind_eq_ok_iff] at hLoad
  obtain ⟨s, hSource, _, _, l, _, tags, _, language, _, keyword, _, name, _, description, _,
    children, hChildren, hEq⟩ := hLoad
  obtain rfl := Except.ok.inj hEq
  exact List.rel_flatMap (forall₂_of_require hSource hChildren)
    fun _ _ => featureChild_scenarios

end Load

end Scenarist
