import Scenarist.Outline.Cases
import Scenarist.Proofs.Outline.Instances

/-!
# The cases of a feature

A feature is run scenario by scenario in the order of the document, and every concrete scenario runs
behind the nearest background.  `placed` lists the scenarios with the rules around them, and
`CaseOf` says what the case of a concrete scenario holds.

* `nearest_background`: which background is the nearest one.
* `forall₂_casesOf`: the cases of a scenario are those of its concrete scenarios.
* `cases_append_rule`: a rule has cases of its own and no say in those of other scenarios.
* `cases_in_document_order`: the cases of a feature.
-/

namespace Scenarist

/-! ### Backgrounds -/

/-- The first background among some children, of which `child` makes those that are backgrounds. -/
def FirstBackground {α : Type} (child : Background → α) (children : List α) (b : Background) :
    Prop :=
  ∃ front back, children = front ++ child b :: back ∧ ∀ other, child other ∉ front

section

variable {α : Type} {child : Background → α} {read : α → Option Background}
  (hRead : ∀ {x b}, read x = some b ↔ x = child b)
include hRead

theorem forall_read_eq_none_iff {children : List α} :
    (∀ x ∈ children, read x = none) ↔ ∀ b, child b ∉ children := by
  constructor
  · intro hAll b hb
    have hSome : read (child b) = some b := hRead.mpr rfl
    rw [hAll _ hb] at hSome
    cases hSome
  · intro hNone x hx
    cases hx' : read x with
    | none => rfl
    | some b => exact absurd (hRead.mp hx' ▸ hx) (hNone b)

theorem findSome?_eq_some_iff_firstBackground {children : List α} {b : Background} :
    children.findSome? read = some b ↔ FirstBackground child children b := by
  rw [List.findSome?_eq_some_iff]
  constructor
  · rintro ⟨front, x, back, rfl, hx, hFront⟩
    exact ⟨front, back, by rw [hRead.mp hx], (forall_read_eq_none_iff hRead).mp hFront⟩
  · rintro ⟨front, back, rfl, hFront⟩
    exact ⟨front, _, back, rfl, hRead.mpr rfl, (forall_read_eq_none_iff hRead).mpr hFront⟩

theorem findSome?_eq_none_iff_no_background {children : List α} :
    children.findSome? read = none ↔ ∀ b, child b ∉ children := by
  rw [List.findSome?_eq_none_iff, forall_read_eq_none_iff hRead]

end

theorem Rule.background?_eq_some_iff {r : Rule} {b : Background} :
    r.background? = some b ↔ FirstBackground .background r.children b :=
  findSome?_eq_some_iff_firstBackground fun {x _} => by cases x <;> simp

theorem Rule.background?_eq_none_iff {r : Rule} :
    r.background? = none ↔ ∀ b, .background b ∉ r.children :=
  findSome?_eq_none_iff_no_background fun {x _} => by cases x <;> simp

namespace Feature

variable {f : Feature}

theorem background?_eq_some_iff {b : Background} :
    f.background? = some b ↔ FirstBackground .background f.children b :=
  findSome?_eq_some_iff_firstBackground fun {x _} => by cases x <;> simp

theorem background?_eq_none_iff : f.background? = none ↔ ∀ b, .background b ∉ f.children :=
  findSome?_eq_none_iff_no_background fun {x _} => by cases x <;> simp

/-- The background in front of a scenario: the first one of the rule around it, wherever it stands
in the rule, or if the rule has none the first one of the feature. -/
inductive Nearest (f : Feature) (rule : Option Rule) : Option Background → Prop
  | ofRule {r : Rule} {b : Background} (inside : rule = some r)
      (first : FirstBackground .background r.children b) : Nearest f rule (some b)
  | ofFeature {b : Background} (bare : ∀ r ∈ rule, ∀ other, .background other ∉ r.children)
      (first : FirstBackground .background f.children b) : Nearest f rule (some b)
  | missing (bare : ∀ r ∈ rule, ∀ other, .background other ∉ r.children)
      (missing : ∀ other, .background other ∉ f.children) : Nearest f rule none

theorem nearest_background (f : Feature) (rule : Option Rule) :
    f.Nearest rule (rule.bind Rule.background? <|> f.background?) := by
  cases hRule : rule.bind Rule.background? with
  | some b =>
    obtain ⟨r, rfl, hr⟩ := Option.bind_eq_some_iff.mp hRule
    exact .ofRule rfl (Rule.background?_eq_some_iff.mp hr)
  | none =>
    have hBare : ∀ r ∈ rule, ∀ other, RuleChild.background other ∉ r.children := fun r hr =>
      Rule.background?_eq_none_iff.mp (Option.bind_eq_none_iff.mp hRule r hr)
    cases hFeature : f.background? with
    | some b => exact .ofFeature hBare (background?_eq_some_iff.mp hFeature)
    | none => exact .missing hBare (background?_eq_none_iff.mp hFeature)

/-! ### Scenarios in their places -/

end Feature

/-- A scenario that is a child of a rule, with the rule around it. -/
def Rule.placed (r : Rule) : List (Option Rule × Scenario) :=
  r.children.flatMap fun
    | .background _ => []
    | .scenario s => [(some r, s)]

theorem Rule.placed_eq_map_scenarios (r : Rule) :
    r.placed = r.scenarios.map fun s => (some r, s) := by
  unfold placed scenarios
  generalize some r = around
  induction r.children with
  | nil => rfl
  | cons child children ih =>
    rw [List.flatMap_cons, ih]
    cases child with
    | background b => rfl
    | scenario s => rfl

namespace Feature

variable {f : Feature}

/-- The scenarios of a feature in the order of the document, each with the rule around it. -/
def placed (f : Feature) : List (Option Rule × Scenario) :=
  f.children.flatMap fun
    | .background _ => []
    | .scenario s => [(none, s)]
    | .rule r => r.placed

/-- A case of a scenario is one of its concrete scenarios with what is around it. -/
structure CaseOf (f : Feature) (rule : Option Rule) (s : Scenario) (c : ConcreteScenario)
    (k : ScenarioCase) : Prop where
  featureName : k.featureName = f.name
  ruleName : k.ruleName = rule.map (·.name)
  concrete : k.concrete = c
  background : f.Nearest rule k.background
  tags : ∀ t ∈ k.concrete.scenario.tags, t ∈ s.tags ∨
    ∃ row ∈ k.concrete.origin, ∃ e, s.examples[row.tableIndex]? = some e ∧ t ∈ e.tags

theorem forall₂_casesOf (f : Feature) (rule : Option Rule) (s : Scenario) :
    List.Forall₂ (f.CaseOf rule s) s.expand
      (f.casesOf (rule.map (·.name)) (rule.bind Rule.background? <|> f.background?) s) := by
  refine List.forall₂_map_right_iff.mpr (List.forall₂_same.mpr fun c hc => ?_)
  exact ⟨rfl, rfl, rfl, f.nearest_background rule, Scenario.tags_of_mem_expand hc⟩

theorem cases_eq_flatMap_placed (f : Feature) :
    f.cases = f.placed.flatMap fun p =>
      f.casesOf (p.1.map (·.name)) (p.1.bind Rule.background? <|> f.background?) p.2 := by
  rw [cases, placed, List.flatMap_assoc]
  refine List.flatMap_congr fun child _ => ?_
  cases child with
  | background b => rfl
  | scenario s => exact (List.append_nil _).symm
  | rule r =>
    show r.scenarios.flatMap _ = r.placed.flatMap _
    rw [r.placed_eq_map_scenarios, List.flatMap_map]
    rfl

/-! ### Rules -/

theorem childCases_eq_of_background? {children : List FeatureChild}
    (h : ({ f with children := children } : Feature).background? = f.background?) :
    ({ f with children := children } : Feature).childCases = f.childCases := by
  funext child
  cases child with
  | background b => rfl
  | scenario s => simp only [childCases, casesOf, h]
  | rule r =>
    simp only [childCases, h]
    rfl

theorem background?_append_rule {front back : List FeatureChild} {r : Rule}
    (h : f.children = front ++ .rule r :: back) :
    ({ f with children := front ++ back } : Feature).background? = f.background? := by
  simp only [background?, h, List.findSome?_append, List.findSome?_cons]

/-- A rule has cases of its own and no say in those of other scenarios. -/
theorem cases_append_rule {front back : List FeatureChild} {r : Rule}
    (h : f.children = front ++ .rule r :: back) :
    f.cases = front.flatMap f.childCases ++ f.childCases (.rule r) ++ back.flatMap f.childCases ∧
    ({ f with children := front ++ back } : Feature).cases =
      front.flatMap f.childCases ++ back.flatMap f.childCases := by
  constructor
  · rw [cases, h, List.flatMap_append, List.flatMap_cons, List.append_assoc]
  · rw [cases, childCases_eq_of_background? (background?_append_rule h), List.flatMap_append]

/-- The tags of a rule show in no case. -/
theorem cases_retag_rule {front back : List FeatureChild} {r : Rule} (tags : List Tag)
    (h : f.children = front ++ .rule r :: back) :
    ({ f with children := front ++ .rule { r with tags := tags } :: back } : Feature).cases =
      f.cases := by
  have hBackground : ({ f with children := front ++ .rule { r with tags := tags } :: back } :
      Feature).background? = f.background? := by
    rw [← background?_append_rule h]
    simp only [background?, List.findSome?_append, List.findSome?_cons]
  rw [(cases_append_rule h).1, cases, childCases_eq_of_background? hBackground,
    List.flatMap_append, List.flatMap_cons, List.append_assoc]
  rfl

/-- **The cases of a feature.**

* They are the cases of its scenarios in the order of the document: one case for each concrete
  scenario, with the names of the feature and of the rule around it, the nearest background, and no
  tags but those of the scenario and of the table of examples that it comes from.
* Without a rule the feature has the same cases, less those of the rule.  So the background of a
  rule is in front of no scenario outside of it.
* With other tags at a rule the feature has the same cases. -/
theorem cases_in_document_order (f : Feature) :
    (∃ groups, f.cases = groups.flatten ∧
      List.Forall₂ (fun p group => List.Forall₂ (f.CaseOf p.1 p.2) p.2.expand group)
        f.placed groups) ∧
    (∀ front r back, f.children = front ++ .rule r :: back →
      f.cases =
        front.flatMap f.childCases ++ f.childCases (.rule r) ++ back.flatMap f.childCases ∧
      ({ f with children := front ++ back } : Feature).cases =
        front.flatMap f.childCases ++ back.flatMap f.childCases) ∧
    (∀ front r back tags, f.children = front ++ .rule r :: back →
      ({ f with children := front ++ .rule { r with tags := tags } :: back } : Feature).cases =
        f.cases) := by
  refine ⟨⟨_, f.cases_eq_flatMap_placed.trans List.flatMap_def, ?_⟩,
    fun _ _ _ => cases_append_rule, fun _ _ _ tags => cases_retag_rule tags⟩
  exact List.forall₂_map_right_iff.mpr (List.forall₂_same.mpr fun p _ => f.forall₂_casesOf p.1 p.2)

end Feature

end Scenarist
