import Scenarist.Run.Preparation

/-!
# Outcomes of scenarios
-/

namespace Scenarist

/-- Where a scenario is in its life. -/
inductive ScenarioStatus
  | pending
  | running
  | passed
  /-- A handler reported an error. -/
  | failed
  /-- A step could not be run at all. -/
  | errored
  deriving DecidableEq, Repr

namespace ScenarioStatus

def name : ScenarioStatus → String
  | pending => "pending"
  | running => "running"
  | passed => "passed"
  | failed => "failed"
  | errored => "errored"

/-- Whether nothing follows. -/
def isTerminal : ScenarioStatus → Bool
  | passed | failed | errored => true
  | _ => false

end ScenarioStatus

/-- The step that stopped a scenario. -/
structure StepFailure where
  location : Location
  /-- The keyword that the step ran under. -/
  keyword : StepKeyword
  text : String
  error : ExecutionError
  deriving DecidableEq, Repr

def StepFailure.message (f : StepFailure) : String :=
  "step `" ++ f.keyword.name ++ " " ++ f.text ++ "`" ++ placeWords (some f.location) ++ ": " ++
    f.error.message

/-- What is known of the run of a scenario. -/
structure ScenarioOutcome where
  name : String
  status : ScenarioStatus
  /-- How many steps were done, those of the background included. -/
  stepsPassed : Nat
  failure : Option StepFailure
  deriving DecidableEq, Repr

namespace ScenarioOutcome

def pending (name : String) : ScenarioOutcome := ⟨name, .pending, 0, none⟩

def start (o : ScenarioOutcome) : ScenarioOutcome := { o with status := .running }

/-- One more step is done. -/
def advance (o : ScenarioOutcome) : ScenarioOutcome := { o with stepsPassed := o.stepsPassed + 1 }

def pass (o : ScenarioOutcome) : ScenarioOutcome := { o with status := .passed }

def fail (f : StepFailure) (o : ScenarioOutcome) : ScenarioOutcome :=
  { o with
    status := if f.error.isHandlerFailure then .failed else .errored
    failure := some f }

def hasPassed (o : ScenarioOutcome) : Bool := o.status == .passed

end ScenarioOutcome

end Scenarist
