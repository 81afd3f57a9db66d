import Scenarist.Proofs.Run.Course
import Scenarist.Proofs.Run.Handlers

/-!
# Runs that take notes

A handler that neither changes the state nor fails leaves no trace, so that what a run calls cannot
be read off its result.  `StepRegistry.noted` and `Hooks.noted` watch: they work on a state with a
list beside it, to which every handler that is called and every event are added, and otherwise do
what the originals do.

* `StepEnds.noted`, `StepsDone.noted`: a step goes in the noted registry as it goes in the original,
  and what happens on the way is added to the notes.
* `noted_run_of_stepsDone`, `noted_run_of_stops`: the notes of a run.
-/

namespace Scenarist

variable {σ : Type}

/-- A state with the notes of what has happened, in order. -/
abbrev Noted (σ : Type) := σ × List (Occurrence σ)

/-- The definition with a handler that notes its calls. -/
def StepDefinition.noted (d : StepDefinition σ) : StepDefinition (Noted σ) where
  keyword := d.keyword
  pattern := d.pattern
  handler arguments state :=
    let (reply, after) := d.handler arguments state.1
    (reply, (after, state.2 ++ [.call d arguments]))
  parameters := d.parameters
  converters := d.converters
  site := d.site

def StepRegistry.noted (r : StepRegistry σ) : StepRegistry (Noted σ) :=
  ⟨r.definitions.map StepDefinition.noted⟩

/-- The hooks, with a note of every event. -/
def Hooks.noted (hooks : Hooks σ) : Hooks (Noted σ) :=
  fun e state => (hooks e state.1, state.2 ++ [.event e])

variable {r : StepRegistry σ} {fixtures : FixtureResolver} {hooks : Hooks σ}

/-! ### Preparing -/

theorem prepare_noted (r : StepRegistry σ) (step : Step) (keyword : StepKeyword)
    (fixtures : FixtureResolver) :
    r.noted.prepare step keyword fixtures =
      (r.prepare step keyword fixtures).map fun m => (m.1.noted, m.2) :=
  prepare_withHandlers r (fun d => d.noted.handler) step keyword fixtures

/-! ### Steps -/

/-- **A step goes the same way when notes are taken**, and they grow by what happens. -/
theorem StepEnds.noted {p : Step × StepKeyword} {before after : σ} {error : Option ExecutionError}
    {here : List (Occurrence σ)} (h : StepEnds r fixtures hooks p before error here after)
    (notes : List (Occurrence σ)) :
    ∃ there, StepEnds r.noted fixtures hooks.noted p (before, notes) error there
      (after, notes ++ here) := by
  cases h with
  | @refused step keyword before e prepared =>
    have hPrepared : r.noted.prepare step keyword fixtures = .error e := by
      rw [prepare_noted, prepared]; rfl
    exact ⟨_, .refused hPrepared⟩
  | @done step keyword before after d arguments prepared reply =>
    have hPrepared : r.noted.prepare step keyword fixtures = .ok (d.noted, arguments) := by
      rw [prepare_noted, prepared]; rfl
    have hReply : d.noted.handler arguments (hooks.noted (.beforeStep step) (before, notes)) =
        (.done, (after, notes ++ [.event (.beforeStep step)] ++ [.call d arguments])) := by
      simp only [StepDefinition.noted, Hooks.noted, reply]
    have hEnds : StepEnds r.noted fixtures hooks.noted _ _ _ _ _ := .done hPrepared hReply
    simp only [Hooks.noted, List.append_assoc, List.cons_append, List.nil_append] at hEnds
    exact ⟨_, hEnds⟩
  | @broken step keyword before after d arguments reply e prepared replied isError =>
    have hPrepared : r.noted.prepare step keyword fixtures = .ok (d.noted, arguments) := by
      rw [prepare_noted, prepared]; rfl
    have hReply : d.noted.handler arguments (hooks.noted (.beforeStep step) (before, notes)) =
        (reply, (after, notes ++ [.event (.beforeStep step)] ++ [.call d arguments])) := by
      simp only [StepDefinition.noted, Hooks.noted, replied]
    have hEnds : StepEnds r.noted fixtures hooks.noted _ _ _ _ _ :=
      .broken hPrepared hReply isError
    simp only [Hooks.noted, List.append_assoc, List.cons_append, List.nil_append] at hEnds
    exact ⟨_, hEnds⟩

theorem StepsDone.noted {steps : List (Step × StepKeyword)} {before after : σ}
    {here : List (Occurrence σ)} (h : StepsDone r fixtures hooks steps before here after)
    (notes : List (Occurrence σ)) :
    ∃ there, StepsDone r.noted fixtures hooks.noted steps (before, notes) there
      (after, notes ++ here) := by
  induction h generalizing notes with
  | nil state => exact ⟨_, by rw [List.append_nil]; exact .nil _⟩
  | @cons p rest before mid after here further first others ih =>
    obtain ⟨_, hFirst⟩ := first.noted notes
    obtain ⟨_, hOthers⟩ := ih (notes ++ here)
    rw [List.append_assoc] at hOthers
    exact ⟨_, .cons hFirst hOthers⟩

/-! ### Runs -/

theorem noted_run_of_stepsDone {s : Scenario} {background : Option Background} {state after : σ}
    {here : List (Occurrence σ)}
    (h : StepsDone r fixtures hooks (s.plan background) (hooks (.beforeScenario s) state) here
      after) :
    r.noted.run s background fixtures hooks.noted (state, []) =
      let result := r.run s background fixtures hooks state
      (result.1, (result.2, .event (.beforeScenario s) :: here ++
        [.event (.afterScenario s result.1)])) := by
  obtain ⟨there, hNoted⟩ : ∃ there, StepsDone r.noted fixtures hooks.noted (s.plan background)
      (hooks.noted (.beforeScenario s) (state, [])) there
      (after, .event (.beforeScenario s) :: here) := h.noted [.event (.beforeScenario s)]
  rw [run_of_stepsDone h, run_of_stepsDone hNoted]
  rfl

theorem noted_run_of_stops {s : Scenario} {background : Option Background} {state mid after : σ}
    {front back : List (Step × StepKeyword)} {p : Step × StepKeyword} {error : ExecutionError}
    {here last : List (Occurrence σ)} (hPlan : s.plan background = front ++ p :: back)
    (h : StepsDone r fixtures hooks front (hooks (.beforeScenario s) state) here mid)
    (stop : StepEnds r fixtures hooks p mid (some error) last after) :
    r.noted.run s background fixtures hooks.noted (state, []) =
      let result := r.run s background fixtures hooks state
      (result.1, (result.2, .event (.beforeScenario s) :: here ++ last ++
        [.event (.afterScenario s result.1)])) := by
  obtain ⟨there, hNoted⟩ : ∃ there, StepsDone r.noted fixtures hooks.noted front
      (hooks.noted (.beforeScenario s) (state, [])) there
      (mid, .event (.beforeScenario s) :: here) := h.noted [.event (.beforeScenario s)]
  obtain ⟨_, hStop⟩ := stop.noted (.event (.beforeScenario s) :: here)
  rw [run_of_stops hPlan h stop, run_of_stops hPlan hNoted hStop]
  rfl

end Scenarist
