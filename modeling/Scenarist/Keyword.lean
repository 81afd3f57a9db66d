import Scenarist.Text.Blank

/-!
# Step keywords

`resolve` gives a step the keyword that it runs under: its own or, for the conjunctions, the one
that was last seen.
-/

namespace Scenarist

/-- The keywords of steps. -/
inductive StepKeyword
  | given | when_ | then_ | and | but
  deriving DecidableEq, Repr

namespace StepKeyword

def name : StepKeyword → String
  | given => "Given"
  | when_ => "When"
  | then_ => "Then"
  | and => "And"
  | but => "But"

/-- Whether the keyword continues the one before it. -/
def isConjunction : StepKeyword → Bool
  | and | but => true
  | _ => false

/-- The keyword that a step runs under, and the keyword that a conjunction after it continues. -/
def resolve (k : StepKeyword) (previous : Option StepKeyword) : StepKeyword × Option StepKeyword :=
  if k.isConjunction then (previous.getD given, previous) else (k, some k)

/-- Reads a keyword in any case, between blanks; on failure gives the word back. -/
def read (s : List Char) : Except String StepKeyword :=
  let word := Text.trim s
  match String.ofList (word.map Char.toLower) with
  | "given" => .ok given
  | "when" => .ok when_
  | "then" => .ok then_
  | "and" | "*" => .ok and
  | "but" => .ok but
  | _ => .error (String.ofList word)

/-- The message for a word that is no keyword. -/
def unreadable (word : String) : String := "invalid step keyword: " ++ word

end StepKeyword

end Scenarist
