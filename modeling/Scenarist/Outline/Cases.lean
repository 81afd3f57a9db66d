import Scenarist.Outline.Expansion

/-!
# The cases of a feature

Every concrete scenario of a feature with the background that runs before it: the one of the
enclosing rule, if it has one, and otherwise that of the feature.
-/

namespace Scenarist

/-- A concrete scenario and what it is part of. -/
structure ScenarioCase where
  featureName : String
  ruleName : Option String
  concrete : ConcreteScenario
  background : Option Background
  deriving DecidableEq, Repr

namespace Feature

/-- The cases of one scenario. -/
def casesOf (f : Feature) (ruleName : Option String) (background : Option Background)
    (s : Scenario) : List ScenarioCase :=
  s.expand.map fun c => ⟨f.name, ruleName, c, background⟩

/-- The cases of one child of a feature. -/
def childCases (f : Feature) : FeatureChild → List ScenarioCase
  | .background _ => []
  | .scenario s => f.casesOf none f.background? s
  | .rule r => r.scenarios.flatMap (f.casesOf (some r.name) (r.background? <|> f.background?))

/-- All cases of a feature in the order of the document. -/
def cases (f : Feature) : List ScenarioCase := f.children.flatMap f.childCases

end Feature

end Scenarist
