import Scenarist.Entries
import Scenarist.Value.Basic

/-!
# Fixtures

Values for parameters that neither the pattern nor the step provides.
-/

namespace Scenarist

/-- Gives the value of a fixture, if there is one of the name. -/
abbrev FixtureResolver := String → Option Value

namespace FixtureResolver

/-- No fixtures. -/
def none : FixtureResolver := fun _ => Option.none

end FixtureResolver

/-- Fixtures by name. -/
structure FixtureMap where
  entries : List (String × Value)
  deriving DecidableEq, Repr

namespace FixtureMap

def empty : FixtureMap := ⟨[]⟩

/-- Sets a fixture, in the place of an earlier value of that name. -/
def insert (name : String) (value : Value) (f : FixtureMap) : FixtureMap :=
  ⟨Entries.enter name value f.entries⟩

def resolve (f : FixtureMap) : FixtureResolver := fun name => Entries.find? name f.entries

/-- The names in order. -/
def names (f : FixtureMap) : List String := Entries.names f.entries

end FixtureMap

end Scenarist
