import Scenarist.Run.Scenario

/-!
# The course of a run

How a step goes in a state is a relation, `StepEnds`, with one constructor for each way: the step is
refused before its handler is called, its handler is done, or its handler reports an error.  Beside
the error and the state it names what happens on the way, in order: the events that hooks see and
the calls of handlers.  `StepsDone` chains steps that are all done.

* `StepEnds.runStep_eq`, `exists_stepEnds`: the relation is what `runStep` computes.
* `stepsDone_or_stops`: of the steps of a list either all are done, or there is a first one that is
  not.
* `run_of_stepsDone`, `run_of_stops`: the outcome and the last state of a run in either case.
-/

namespace Scenarist

variable {σ : Type}

/-- What happens in a run: hooks see an event, or a handler is called. -/
inductive Occurrence (σ : Type)
  | event (e : Event)
  | call (d : StepDefinition σ) (arguments : StepArguments)

/-- How a step goes: the error that stops it, what happens on the way, and the state behind it. -/
inductive StepEnds (r : StepRegistry σ) (fixtures : FixtureResolver) (hooks : Hooks σ) :
    Step × StepKeyword → σ → Option ExecutionError → List (Occurrence σ) → σ → Prop
  | refused {step : Step} {keyword : StepKeyword} {before : σ} {error : ExecutionError}
      (prepared : r.prepare step keyword fixtures = .error error) :
      StepEnds r fixtures hooks (step, keyword) before (some error)
        [.event (.lookupError step error)] (hooks (.lookupError step error) before)
  | done {step : Step} {keyword : StepKeyword} {before after : σ} {d : StepDefinition σ}
      {arguments : StepArguments}
      (prepared : r.prepare step keyword fixtures = .ok (d, arguments))
      (reply : d.handler arguments (hooks (.beforeStep step) before) = (.done, after)) :
      StepEnds r fixtures hooks (step, keyword) before none
        [.event (.beforeStep step), .call d arguments, .event (.afterStep step)]
        (hooks (.afterStep step) after)
  | broken {step : Step} {keyword : StepKeyword} {before after : σ} {d : StepDefinition σ}
      {arguments : StepArguments} {reply : Reply} {error : StepError}
      (prepared : r.prepare step keyword fixtures = .ok (d, arguments))
      (replied : d.handler arguments (hooks (.beforeStep step) before) = (reply, after))
      (isError : reply.error? = some error) :
      StepEnds r fixtures hooks (step, keyword) before (some (.handler error))
        [.event (.beforeStep step), .call d arguments, .event (.stepError step error)]
        (hooks (.stepError step error) after)

/-- All steps are done, one behind the other. -/
inductive StepsDone (r : StepRegistry σ) (fixtures : FixtureResolver) (hooks : Hooks σ) :
    List (Step × StepKeyword) → σ → List (Occurrence σ) → σ → Prop
  | nil (state : σ) : StepsDone r fixtures hooks [] state [] state
  | cons {p : Step × StepKeyword} {rest : List (Step × StepKeyword)} {before mid after : σ}
      {here further : List (Occurrence σ)}
      (first : StepEnds r fixtures hooks p before none here mid)
      (others : StepsDone r fixtures hooks rest mid further after) :
      StepsDone r fixtures hooks (p :: rest) before (here ++ further) after

/-- The handlers called, with their arguments. -/
def calls (occurrences : List (Occurrence σ)) : List (StepDefinition σ × StepArguments) :=
  occurrences.filterMap fun
    | .call d arguments => some (d, arguments)
    | .event _ => none

variable {r : StepRegistry σ} {fixtures : FixtureResolver} {hooks : Hooks σ}

/-! ### Preparing a step

What fails before the handler is called is never an error of the handler. -/

theorem ReservedParameter.isHandlerFailure_of_ofTable {q : ReservedParameter} {t : DataTable}
    {error : ExecutionError} (h : q.ofTable t = .error error) :
    error.isHandlerFailure = false := by
  unfold ReservedParameter.ofTable at h
  split at h
  · exact absurd h (by simp)
  · cases hColumns : t.columns with
    | ok columns => rw [hColumns] at h; cases h
    | error fault => rw [hColumns] at h; cases h; rfl
  · exact absurd h (by simp)

theorem ReservedParameter.isHandlerFailure_of_ofStep {q : ReservedParameter} {step : Step}
    {error : ExecutionError} (h : q.ofStep step = .error error) :
    error.isHandlerFailure = false := by
  unfold ReservedParameter.ofStep at h
  split at h
  · exact isHandlerFailure_of_ofTable h
  · exact absurd h (by simp)
  · cases h; rfl

theorem StepDefinition.isHandlerFailure_of_fill {d : StepDefinition σ} {step : Step}
    {fixtures : FixtureResolver} {a : StepArguments} {name : String} {error : ExecutionError}
    (h : d.fill step fixtures a name = .error error) : error.isHandlerFailure = false := by
  unfold StepDefinition.fill at h
  split at h
  · exact absurd h (by simp)
  · cases hSupply : d.supply step fixtures name with
    | ok v => rw [hSupply] at h; exact absurd h (by simp [Except.map])
    | error e =>
      rw [hSupply] at h
      cases h
      unfold StepDefinition.supply at hSupply
      split at hSupply
      · exact ReservedParameter.isHandlerFailure_of_ofStep hSupply
      · split at hSupply
        · exact absurd hSupply (by simp)
        · cases hSupply; rfl

theorem ResolvedStep.isHandlerFailure_of_assemble {found : ResolvedStep σ} {step : Step}
    {fixtures : FixtureResolver} {error : ExecutionError}
    (h : found.assemble step fixtures = .error error) : error.isHandlerFailure = false := by
  unfold ResolvedStep.assemble at h
  generalize StepArguments.ofList found.arguments = a at h
  generalize found.definition.parameters = names at h
  induction names generalizing a with
  | nil => exact absurd h (by simp [pure, Except.pure])
  | cons name rest ih =>
    rw [List.foldlM_cons] at h
    cases hFill : found.definition.fill step fixtures a name with
    | ok a' => rw [hFill] at h; exact ih a' h
    | error e => rw [hFill] at h; cases h; exact StepDefinition.isHandlerFailure_of_fill hFill

theorem StepRegistry.isHandlerFailure_of_prepare (r : StepRegistry σ) {step : Step}
    {keyword : StepKeyword} {fixtures : FixtureResolver} {error : ExecutionError}
    (h : r.prepare step keyword fixtures = .error error) : error.isHandlerFailure = false := by
  unfold StepRegistry.prepare at h
  cases hFound : r.resolveStep keyword step with
  | error e => rw [hFound] at h; cases h; rfl
  | ok found =>
    rw [hFound] at h
    cases hArguments : found.assemble step fixtures with
    | ok a =>
      change (found.assemble step fixtures >>= fun a => .ok (found.definition, a)) = _ at h
      rw [hArguments] at h
      cases h
    | error e =>
      change (found.assemble step fixtures >>= fun a => .ok (found.definition, a)) = _ at h
      rw [hArguments] at h
      cases h
      exact ResolvedStep.isHandlerFailure_of_assemble hArguments

/-! ### One step -/

theorem Reply.error?_eq_none_iff {reply : Reply} : reply.error? = none ↔ reply = .done := by
  cases reply <;> simp [Reply.error?]

theorem StepEnds.runStep_eq {p : Step × StepKeyword} {before after : σ}
    {error : Option ExecutionError} {here : List (Occurrence σ)}
    (h : StepEnds r fixtures hooks p before error here after) :
    r.runStep fixtures hooks p.1 p.2 before = (error, after) := by
  cases h with
  | refused prepared => simp only [StepRegistry.runStep, prepared]
  | done prepared reply => simp only [StepRegistry.runStep, prepared, reply, Reply.error?]
  | broken prepared replied isError =>
    simp only [StepRegistry.runStep, prepared, replied, isError]

/-- Every step goes in one of the three ways. -/
theorem exists_stepEnds (r : StepRegistry σ) (fixtures : FixtureResolver) (hooks : Hooks σ)
    (p : Step × StepKeyword) (before : σ) :
    ∃ error here after, StepEnds r fixtures hooks p before error here after := by
  obtain ⟨step, keyword⟩ := p
  cases prepared : r.prepare step keyword fixtures with
  | error e => exact ⟨_, _, _, .refused prepared⟩
  | ok found =>
    obtain ⟨d, arguments⟩ := found
    cases replied : d.handler arguments (hooks (.beforeStep step) before) with
    | mk reply after =>
      cases isError : reply.error? with
      | none =>
        rw [Reply.error?_eq_none_iff] at isError
        subst isError
        exact ⟨_, _, _, .done prepared replied⟩
      | some e => exact ⟨_, _, _, .broken prepared replied isError⟩

/-- A step goes in one way only. -/
theorem StepEnds.unique {p : Step × StepKeyword} {before after after' : σ}
    {error error' : Option ExecutionError} {here here' : List (Occurrence σ)}
    (h : StepEnds r fixtures hooks p before error here after)
    (h' : StepEnds r fixtures hooks p before error' here' after') :
    error = error' ∧ after = after' := by
  have := h.runStep_eq.symm.trans h'.runStep_eq
  simpa only [Prod.mk.injEq] using this

/-! ### Calls -/

@[simp] theorem calls_event_cons (e : Event) (occurrences : List (Occurrence σ)) :
    calls (.event e :: occurrences) = calls occurrences := rfl

/-- **Of the steps of a list either all are done, or there is a first one that is not.** -/
theorem stepsDone_or_stops (r : StepRegistry σ) (fixtures : FixtureResolver) (hooks : Hooks σ)
    (steps : List (Step × StepKeyword)) (before : σ) :
    (∃ here after, StepsDone r fixtures hooks steps before here after) ∨
    ∃ front p back here mid error last after, steps = front ++ p :: back ∧
      StepsDone r fixtures hooks front before here mid ∧
      StepEnds r fixtures hooks p mid (some error) last after := by
  induction steps generalizing before with
  | nil => exact .inl ⟨_, _, .nil before⟩
  | cons p rest ih =>
    obtain ⟨error, here, mid, first⟩ := exists_stepEnds r fixtures hooks p before
    cases error with
    | some e => exact .inr ⟨[], p, rest, _, _, e, here, mid, rfl, .nil before, first⟩
    | none =>
      rcases ih mid with ⟨further, after, others⟩ |
        ⟨front, q, back, further, mid', e, last, after, rfl, others, stop⟩
      · exact .inl ⟨_, after, .cons first others⟩
      · exact .inr ⟨p :: front, q, back, _, mid', e, last, after, rfl, .cons first others, stop⟩

/-- Steps that are done count, and the run goes on behind them. -/
theorem StepsDone.runSteps_append {front : List (Step × StepKeyword)} {before after : σ}
    {here : List (Occurrence σ)} (h : StepsDone r fixtures hooks front before here after)
    (rest : List (Step × StepKeyword)) (o : ScenarioOutcome) :
    r.runSteps fixtures hooks (front ++ rest) o before =
      r.runSteps fixtures hooks rest { o with stepsPassed := o.stepsPassed + front.length }
        after := by
  induction h generalizing o with
  | nil state => rfl
  | @cons p front before mid after here further first others ih =>
    have hStep := first.runStep_eq
    rw [List.cons_append, StepRegistry.runSteps]
    simp only [hStep, ih, ScenarioOutcome.advance, List.length_cons, Nat.add_assoc,
      Nat.add_comm 1]

theorem run_of_stepsDone {s : Scenario} {background : Option Background} {state after : σ}
    {here : List (Occurrence σ)}
    (h : StepsDone r fixtures hooks (s.plan background) (hooks (.beforeScenario s) state) here
      after) :
    r.run s background fixtures hooks state =
      let o : ScenarioOutcome := ⟨s.name, .passed, (s.plan background).length, none⟩
      (o, hooks (.afterScenario s o) after) := by
  have hSteps := h.runSteps_append [] (ScenarioOutcome.pending s.name).start
  rw [List.append_nil] at hSteps
  simp only [StepRegistry.run, hSteps, StepRegistry.runSteps]
  simp only [ScenarioOutcome.pass, ScenarioOutcome.start, ScenarioOutcome.pending, Nat.zero_add]

theorem run_of_stops {s : Scenario} {background : Option Background} {state mid after : σ}
    {front back : List (Step × StepKeyword)} {p : Step × StepKeyword} {error : ExecutionError}
    {here last : List (Occurrence σ)} (hPlan : s.plan background = front ++ p :: back)
    (h : StepsDone r fixtures hooks front (hooks (.beforeScenario s) state) here mid)
    (stop : StepEnds r fixtures hooks p mid (some error) last after) :
    r.run s background fixtures hooks state =
      let o : ScenarioOutcome := ⟨s.name, if error.isHandlerFailure then .failed else .errored,
        front.length, some ⟨p.1.location, p.2, p.1.text, error⟩⟩
      (o, hooks (.afterScenario s o) after) := by
  have hSteps := h.runSteps_append (p :: back) (ScenarioOutcome.pending s.name).start
  have hStep := stop.runStep_eq
  simp only [StepRegistry.run, hPlan, hSteps, StepRegistry.runSteps, hStep]
  simp only [ScenarioOutcome.fail, ScenarioOutcome.start, ScenarioOutcome.pending, Nat.zero_add]

end Scenarist
