import Scenarist.Run.Scenario

/-!
# Definitions with other handlers

Finding the definition of a step and filling its parameters never looks at a handler.

* `prepare_withHandlers`: with other handlers a step is prepared as before, for the definition with
  its other handler.
-/

namespace Scenarist

variable {σ τ : Type}

/-- The definition with another handler, which may work on other states. -/
def StepDefinition.withHandler (d : StepDefinition σ) (handler : Handler τ) :
    StepDefinition τ where
  keyword := d.keyword
  pattern := d.pattern
  handler := handler
  parameters := d.parameters
  converters := d.converters
  site := d.site

/-- The registry with another handler for every definition. -/
def StepRegistry.withHandlers (r : StepRegistry σ) (handler : StepDefinition σ → Handler τ) :
    StepRegistry τ :=
  ⟨r.definitions.map fun d => d.withHandler (handler d)⟩

variable (r : StepRegistry σ) (handler : StepDefinition σ → Handler τ)

theorem candidates_withHandlers (keyword : StepKeyword) (text : String) :
    (r.withHandlers handler).candidates keyword text =
      (r.candidates keyword text).map fun m => (m.1.withHandler (handler m.1), m.2) := by
  simp only [StepRegistry.candidates, StepRegistry.withHandlers, List.filter_map,
    List.filterMap_map, List.map_filterMap, Option.map_map]
  rfl

theorem resolveStep_withHandlers (keyword : StepKeyword) (step : Step) :
    (r.withHandlers handler).resolveStep keyword step =
      (r.resolveStep keyword step).map fun m =>
        ⟨m.definition.withHandler (handler m.definition), m.arguments⟩ := by
  unfold StepRegistry.resolveStep StepRegistry.resolveAt
  rw [candidates_withHandlers]
  match r.candidates keyword step.text with
  | [] => rfl
  | [(d, bindings)] =>
    have hConvert : (d.withHandler (handler d)).convert = d.convert := rfl
    simp only [List.map_cons, List.map_nil, hConvert]
    cases bindings.mapM d.convert <;> rfl
  | first :: second :: more =>
    simp only [List.map_cons, List.map_map, Except.map]
    rfl

/-- **Preparing a step does not look at handlers.** -/
theorem prepare_withHandlers (step : Step) (keyword : StepKeyword) (fixtures : FixtureResolver) :
    (r.withHandlers handler).prepare step keyword fixtures =
      (r.prepare step keyword fixtures).map fun m => (m.1.withHandler (handler m.1), m.2) := by
  unfold StepRegistry.prepare
  rw [resolveStep_withHandlers]
  cases r.resolveStep keyword step with
  | error e => rfl
  | ok found =>
    have hAssemble : (ResolvedStep.mk (found.definition.withHandler (handler found.definition))
        found.arguments).assemble step fixtures = found.assemble step fixtures := rfl
    show (ResolvedStep.assemble _ step fixtures >>= fun a =>
        .ok (found.definition.withHandler (handler found.definition), a)) =
      (found.assemble step fixtures >>= fun a => .ok (found.definition, a)).map
        fun m => (m.1.withHandler (handler m.1), m.2)
    rw [hAssemble]
    cases found.assemble step fixtures <;> rfl

end Scenarist
