import Scenarist.Outline.Cases
import Scenarist.Run.Outcome

/-!
# Running scenarios

The steps of the background run first, then those of the scenario; the first step that is not done
ends the run. Hooks see every event of a run and may change its state, as handlers may.
-/

namespace Scenarist

/-- The events that hooks see. -/
inductive Event
  | beforeScenario (s : Scenario)
  /-- The step is prepared and its handler is about to be called. -/
  | beforeStep (s : Step)
  | afterStep (s : Step)
  /-- The handler reported an error. -/
  | stepError (s : Step) (error : StepError)
  /-- The step could not be prepared. -/
  | lookupError (s : Step) (error : ExecutionError)
  | afterScenario (s : Scenario) (outcome : ScenarioOutcome)
  deriving DecidableEq, Repr

/-- Watches a run; an event may change the state. -/
abbrev Hooks (σ : Type) := Event → σ → σ

/-- Hooks that do nothing. -/
def Hooks.none {σ : Type} : Hooks σ := fun _ s => s

/-- All steps that a scenario runs, with their keywords. Each block starts anew. -/
def Scenario.plan (s : Scenario) (background : Option Background) : List (Step × StepKeyword) :=
  (match background with
    | some b => withKeywords none b.steps
    | none => []) ++ withKeywords none s.steps

variable {σ : Type}

namespace StepRegistry

/-- Runs one step. -/
def runStep (r : StepRegistry σ) (fixtures : FixtureResolver) (hooks : Hooks σ) (step : Step)
    (keyword : StepKeyword) (state : σ) : Option ExecutionError × σ :=
  match r.prepare step keyword fixtures with
  | .error e => (some e, hooks (.lookupError step e) state)
  | .ok (d, arguments) =>
    let (reply, state) := d.handler arguments (hooks (.beforeStep step) state)
    match reply.error? with
    | none => (none, hooks (.afterStep step) state)
    | some e => (some (.handler e), hooks (.stepError step e) state)

/-- Runs steps up to the first that is not done. -/
def runSteps (r : StepRegistry σ) (fixtures : FixtureResolver) (hooks : Hooks σ) :
    List (Step × StepKeyword) → ScenarioOutcome → σ → ScenarioOutcome × σ
  | [], o, state => (o.pass, state)
  | (step, keyword) :: rest, o, state =>
    match r.runStep fixtures hooks step keyword state with
    | (none, state) => r.runSteps fixtures hooks rest o.advance state
    | (some e, state) => (o.fail ⟨step.location, keyword, step.text, e⟩, state)

/-- Runs a scenario behind a background. -/
def run (r : StepRegistry σ) (s : Scenario) (background : Option Background)
    (fixtures : FixtureResolver) (hooks : Hooks σ) (state : σ) : ScenarioOutcome × σ :=
  let state := hooks (.beforeScenario s) state
  let outcome := (ScenarioOutcome.pending s.name).start
  let (outcome, state) := r.runSteps fixtures hooks (s.plan background) outcome state
  (outcome, hooks (.afterScenario s outcome) state)

/-- Runs a scenario behind a background, without fixtures and hooks. -/
def runPlain (r : StepRegistry σ) (s : Scenario) (background : Option Background) (state : σ) :
    ScenarioOutcome × σ :=
  r.run s background .none .none state

/-- Runs a case of a feature. -/
def runCase (r : StepRegistry σ) (c : ScenarioCase) (fixtures : FixtureResolver)
    (hooks : Hooks σ) (state : σ) : ScenarioOutcome × σ :=
  r.run c.concrete.scenario c.background fixtures hooks state

end StepRegistry

end Scenarist
