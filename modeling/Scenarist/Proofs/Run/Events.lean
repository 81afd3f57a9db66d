import Mathlib.Data.List.Forall2
import Scenarist.Proofs.Run.Notes

/-!
# The events of a run

The notes of a run say in which order hooks are told and handlers called.  Every step that is done
leaves the same three notes, and behind the last of them the outcome decides what is noted.

* `StepsDone.passages`: what steps that are done leave behind.
* `StepEnds.closing`: what a step leaves behind at which the run stops.
* `run_reporting`: breaking off is an error that is reported; a run does not tell them apart.
* `notes_of_run`: all notes of a run.
-/

namespace Scenarist

variable {σ : Type}

/-! ### Handlers that break off -/

/-- The reply, with what the handler broke off with reported as an error. -/
def Reply.reported : Reply → Reply
  | .brokeOff payload => .failed (.broken payload.message)
  | reply => reply

theorem Reply.error?_reported (reply : Reply) : reply.reported.error? = reply.error? := by
  cases reply <;> rfl

/-- A handler that does what the one of the definition does, but never breaks off. -/
def StepDefinition.reporting (d : StepDefinition σ) : Handler σ := fun arguments state =>
  ((d.handler arguments state).1.reported, (d.handler arguments state).2)

/-- The registry with handlers that never break off. -/
def StepRegistry.reporting (r : StepRegistry σ) : StepRegistry σ :=
  r.withHandlers StepDefinition.reporting

section Reporting

variable (r : StepRegistry σ) (fixtures : FixtureResolver) (hooks : Hooks σ)

theorem runStep_reporting (step : Step) (keyword : StepKeyword) (state : σ) :
    r.reporting.runStep fixtures hooks step keyword state =
      r.runStep fixtures hooks step keyword state := by
  unfold StepRegistry.runStep StepRegistry.reporting
  rw [prepare_withHandlers]
  cases r.prepare step keyword fixtures with
  | error e => rfl
  | ok found =>
    simp only [Except.map, StepDefinition.withHandler, StepDefinition.reporting,
      Reply.error?_reported]

theorem runSteps_reporting (steps : List (Step × StepKeyword)) (o : ScenarioOutcome) (state : σ) :
    r.reporting.runSteps fixtures hooks steps o state =
      r.runSteps fixtures hooks steps o state := by
  induction steps generalizing o state with
  | nil => rfl
  | cons p rest ih =>
    rw [StepRegistry.runSteps, StepRegistry.runSteps, runStep_reporting]
    split
    · exact ih _ _
    · rfl

/-- **A run does not tell a handler that breaks off from one that reports an error.** -/
theorem run_reporting (s : Scenario) (background : Option Background) (state : σ) :
    r.reporting.run s background fixtures hooks state = r.run s background fixtures hooks state := by
  simp only [StepRegistry.run, runSteps_reporting]

end Reporting

/-! ### The notes of steps -/

/-- What happens at a step that is done: its handler is called once, between two events. -/
def Passage (r : StepRegistry σ) (fixtures : FixtureResolver) (p : Step × StepKeyword)
    (here : List (Occurrence σ)) : Prop :=
  ∃ d arguments, r.prepare p.1 p.2 fixtures = .ok (d, arguments) ∧
    here = [.event (.beforeStep p.1), .call d arguments, .event (.afterStep p.1)]

/-- What happens behind the steps that are done, by the outcome of the run: nothing; or the step that
cannot be prepared is told, and no handler is called; or the handler of the step is called once, and
its error is told. -/
inductive Closing (r : StepRegistry σ) (fixtures : FixtureResolver)
    (steps : List (Step × StepKeyword)) (o : ScenarioOutcome) : List (Occurrence σ) → Prop
  | passed (status : o.status = .passed) (failure : o.failure = none)
      (all : o.stepsPassed = steps.length) : Closing r fixtures steps o []
  | errored {step : Step} {keyword : StepKeyword} {error : ExecutionError}
      (status : o.status = .errored)
      (failure : o.failure = some ⟨step.location, keyword, step.text, error⟩)
      (reached : steps[o.stepsPassed]? = some (step, keyword))
      (refused : r.prepare step keyword fixtures = .error error) :
      Closing r fixtures steps o [.event (.lookupError step error)]
  | failed {step : Step} {keyword : StepKeyword} {error : StepError} {d : StepDefinition σ}
      {arguments : StepArguments} (status : o.status = .failed)
      (failure : o.failure = some ⟨step.location, keyword, step.text, .handler error⟩)
      (reached : steps[o.stepsPassed]? = some (step, keyword))
      (prepared : r.prepare step keyword fixtures = .ok (d, arguments)) :
      Closing r fixtures steps o
        [.event (.beforeStep step), .call d arguments, .event (.stepError step error)]

variable {r : StepRegistry σ} {fixtures : FixtureResolver} {hooks : Hooks σ}

theorem StepsDone.passages {steps : List (Step × StepKeyword)} {before after : σ}
    {here : List (Occurrence σ)} (h : StepsDone r fixtures hooks steps before here after) :
    ∃ blocks, List.Forall₂ (Passage r fixtures) steps blocks ∧ blocks.flatten = here := by
  induction h with
  | nil state => exact ⟨[], .nil, rfl⟩
  | cons first others ih =>
    obtain ⟨blocks, hBlocks, rfl⟩ := ih
    cases first with
    | done prepared _ => exact ⟨_ :: blocks, .cons ⟨_, _, prepared, rfl⟩ hBlocks, rfl⟩

/-- The step at which a run stops, behind as many as are counted. -/
theorem StepEnds.closing {p : Step × StepKeyword} {before after : σ} {error : ExecutionError}
    {last : List (Occurrence σ)} (h : StepEnds r fixtures hooks p before (some error) last after)
    {steps : List (Step × StepKeyword)} {name : String} {passed : Nat}
    (hReached : steps[passed]? = some p) :
    Closing r fixtures steps ⟨name, if error.isHandlerFailure then .failed else .errored, passed,
      some ⟨p.1.location, p.2, p.1.text, error⟩⟩ last := by
  cases h with
  | refused prepared =>
    refine .errored ?_ rfl hReached prepared
    rw [r.isHandlerFailure_of_prepare prepared]
    rfl
  | broken prepared _ _ => exact .failed rfl rfl hReached prepared

/-! ### The notes of a run -/

/-- **The notes of a run.**  The run that takes notes has the outcome and the state of the run
itself.  It notes that the scenario begins, then for each of the steps counted, in order, that the
step begins, the call of its handler and that the step is done; then what the outcome calls for; and
last that the scenario has ended with this outcome.  A handler that breaks off leaves the same notes,
the same outcome and the same state as one that reports an error. -/
theorem notes_of_run (r : StepRegistry σ) (s : Scenario) (background : Option Background)
    (fixtures : FixtureResolver) (hooks : Hooks σ) (state : σ) :
    let steps := s.plan background
    let result := r.run s background fixtures hooks state
    let o := result.1
    let noted := r.noted.run s background fixtures hooks.noted (state, [])
    (noted.1 = o ∧ noted.2.1 = result.2) ∧
    (∃ blocks closing,
      noted.2.2 = .event (.beforeScenario s) :: blocks.flatten ++ closing ++
        [.event (.afterScenario s o)] ∧
      List.Forall₂ (Passage r fixtures) (steps.take o.stepsPassed) blocks ∧
      Closing r fixtures steps o closing) ∧
    r.reporting.run s background fixtures hooks state = result ∧
    r.noted.reporting.run s background fixtures hooks.noted (state, []) = noted := by
  intro steps result o noted
  have hSame : r.reporting.run s background fixtures hooks state = result ∧
      r.noted.reporting.run s background fixtures hooks.noted (state, []) = noted :=
    ⟨run_reporting r fixtures hooks s background state,
      run_reporting r.noted fixtures hooks.noted s background (state, [])⟩
  rcases stepsDone_or_stops r fixtures hooks steps (hooks (.beforeScenario s) state) with
    ⟨here, after, hDone⟩ | ⟨front, p, back, here, mid, error, last, after, hSteps, hFront, hStop⟩
  · have hOutcome : o = ⟨s.name, .passed, steps.length, none⟩ := by
      simp only [o, result, run_of_stepsDone hDone, steps]
    obtain ⟨blocks, hBlocks, rfl⟩ := hDone.passages
    have hNoted : noted = (o, (result.2, .event (.beforeScenario s) :: blocks.flatten ++
        [.event (.afterScenario s o)])) := noted_run_of_stepsDone hDone
    rw [hNoted]
    refine ⟨⟨rfl, rfl⟩, ⟨blocks, [], ?_, ?_, ?_⟩, hNoted ▸ hSame⟩
    · rw [List.append_nil]
    · rw [hOutcome, List.take_length]
      exact hBlocks
    · rw [hOutcome]
      exact .passed rfl rfl rfl
  · have hOutcome : o = ⟨s.name, if error.isHandlerFailure then .failed else .errored,
        front.length, some ⟨p.1.location, p.2, p.1.text, error⟩⟩ := by
      simp only [o, result, run_of_stops hSteps hFront hStop]
    obtain ⟨blocks, hBlocks, rfl⟩ := hFront.passages
    have hNoted : noted = (o, (result.2, .event (.beforeScenario s) :: blocks.flatten ++ last ++
        [.event (.afterScenario s o)])) := noted_run_of_stops hSteps hFront hStop
    have hReached : steps[front.length]? = some p := by
      rw [hSteps, List.getElem?_append_right (Nat.le_refl _), Nat.sub_self]
      rfl
    rw [hNoted]
    refine ⟨⟨rfl, rfl⟩, ⟨blocks, last, rfl, ?_, ?_⟩, hNoted ▸ hSame⟩
    · rw [hOutcome, hSteps, List.take_left' rfl]
      exact hBlocks
    · rw [hOutcome]
      exact hStop.closing hReached

end Scenarist
