import Scenarist.Document.Basic

/-!
# Failures of a grammar
-/

namespace Scenarist

/-- Why a grammar rejects a text: a message and the places that it is about. -/
structure EngineFailure where
  message : String
  locations : List Location
  deriving DecidableEq, Repr

namespace EngineFailure

/-- The line of the first place; zero without places. -/
def firstLine (f : EngineFailure) : Nat :=
  match f.locations with
  | [] => 0
  | l :: _ => l.line

/-- The failure at a place where one thing was expected and another stands. -/
def at_ (l : Location) (expected got : String) : EngineFailure :=
  ⟨s!"({l.line}:{l.column}): expected: {expected}, got '{got}'", [l]⟩

end EngineFailure

end Scenarist
