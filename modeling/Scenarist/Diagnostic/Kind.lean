import Scenarist.Text.Lines

/-!
# Kinds of parse errors

The message of a grammar names what it expected and what it got. `classify` takes the first line of
a message that does so and sorts it by what was got; the earliest rule that applies decides.
-/

namespace Scenarist

/-- The kinds of parse errors. -/
inductive ParseErrorKind
  | feature | background | scenario | step | rule | token | unknown
  deriving DecidableEq, Repr

def ParseErrorKind.name : ParseErrorKind → String
  | feature => "Feature"
  | background => "Background"
  | scenario => "Scenario"
  | step => "Step"
  | rule => "Rule"
  | token => "Token"
  | unknown => "GherkinParse"

namespace Diagnostic

/-- What follows the first place where `part` stands in a text. -/
def after? (part : List Char) : List Char → Option (List Char)
  | [] => if part.isEmpty then some [] else none
  | c :: rest =>
    if part.isPrefixOf (c :: rest) then some ((c :: rest).drop part.length) else after? part rest

/-- Whether some texts stand in a text one after another. -/
def inOrder : List (List Char) → List Char → Bool
  | [], _ => true
  | part :: parts, s =>
    match after? part s with
    | some rest => inOrder parts rest
    | none => false

/-- Whether a line expects something and gets a text that begins with `word`. -/
def gets (word : String) (line : List Char) : Bool :=
  inOrder ["expected:".toList, ("got '" ++ word).toList, ['\'']] line

/-- A rule: the words that may begin what was got, the kind and the message. -/
structure Rule where
  words : List String
  kind : ParseErrorKind
  message : String

/-- The rules in the order in which they are tried. -/
def rules : List Rule := [
  ⟨["Feature"], .feature, "Multiple features are not allowed in a single feature file."⟩,
  ⟨["Given", "When", "Then", "And", "But"], .feature,
    "Step definition outside of a Scenario or a Background."⟩,
  ⟨["Background"], .background, "Multiple 'Background' sections detected. " ++
    "Only one 'Background' is allowed per feature."⟩,
  ⟨["Scenario"], .scenario, "Misplaced or incorrect 'Scenario' keyword. " ++
    "Ensure it's correctly placed. There might be a missing Feature section."⟩,
  ⟨["Given"], .step, "Improper step keyword detected. " ++
    "Ensure correct order and indentation for steps (Given, When, Then, etc.)."⟩,
  ⟨["Rule"], .rule,
    "Misplaced or incorrectly formatted 'Rule'. Ensure it follows the feature structure."⟩,
  ⟨[""], .token, "Unexpected token found. Check Gherkin syntax near the reported error."⟩]

/-- The first rule that applies to a line. -/
def ruleFor? (line : List Char) : Option Rule :=
  rules.find? fun r => r.words.any fun w => gets w line

/-- The kind and the message of an error, by the message of the grammar. -/
def classify (raw : String) : ParseErrorKind × String :=
  match (Text.lines raw.toList).findSome? ruleFor? with
  | some r => (r.kind, r.message)
  | none => (.unknown, "Unknown parsing error: " ++ raw)

end Diagnostic

end Scenarist
