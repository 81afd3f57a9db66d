import Scenarist.Format.Pattern
import Scenarist.Keyword
import Scenarist.Regex.Reader
import Scenarist.Text.Quoted
import Scenarist.Value.Converter

/-!
# Step patterns

A pattern either matches the text of a step in full, and then binds parts of it to names, or it does
not match.
-/

namespace Scenarist

open Text

/-- A part of a text under a name, with the converter that the pattern chooses for it. -/
structure Binding where
  name : String
  raw : String
  converter : Option Converter

namespace Binding

/-- A binding without a converter. -/
def text (name raw : String) : Binding := ⟨name, raw, none⟩

/-- The binding of a captured field. -/
def ofField (f : CapturedField) : Binding := ⟨f.name, f.value, f.hint.bind Converter.ofHint?⟩

def describe (b : Binding) : String :=
  "Binding \x7b name: " ++ quoted b.name ++ ", raw: " ++ quoted b.raw ++ ", converter: " ++
    (if b.converter.isSome then "true" else "false") ++ " \x7d"

end Binding

/-- A way to match texts of its own. -/
structure StepMatcher where
  attempt : String → Option (List Binding)
  description : String

namespace StepMatcher

/-- Matches the texts that begin with a given one and binds what follows it. -/
def leading (start : String) : StepMatcher where
  attempt text :=
    if start.toList.isPrefixOf text.toList then
      some [.text "rest" (String.ofList (text.toList.drop start.toList.length))]
    else none
  description := "prefix " ++ start

/-- Matches every text and binds its words, with the converter of a hint. -/
def words (hint : String) : StepMatcher where
  attempt text := some ((Text.words text.toList).zipIdx.map fun (word, i) =>
    ⟨"w" ++ toString i, String.ofList word, Converter.ofHint? hint⟩)
  description := "words " ++ hint

end StepMatcher

/-- How a definition recognises the text of a step. -/
inductive StepPattern
  | exact (text : String)
  /-- An expression for the whole text; its named groups bind. -/
  | expression (source : String) (e : Expression)
  | format (p : FormatPattern)
  | custom (m : StepMatcher)

/-- Why a definition is refused. -/
inductive RegistrationError
  | conjunction (keyword : StepKeyword)
  | format (pattern : String) (fault : PatternFault)
  | expression (pattern : String) (fault : RegexFault)
  deriving DecidableEq, Repr

/-- The message of an error; a fault of an expression has no message of its own. -/
def RegistrationError.message? : RegistrationError → Option String
  | conjunction keyword =>
    some ("step definitions cannot be registered under the conjunction `" ++ keyword.name ++ "`")
  | format pattern fault =>
    fault.message?.map fun message =>
      "invalid step pattern " ++ quoted pattern ++ ": " ++ message
  | expression .. => none

namespace StepPattern

/-- The expression as it is matched against whole texts. -/
def anchored (source : List Char) : List Char := "^(?:".toList ++ source ++ ")$".toList

/-- The pattern of an expression. -/
def ofExpression (source : String) : Except RegistrationError StepPattern :=
  ((Expression.read (anchored source.toList)).map (.expression source)).mapError
    (.expression source)

/-- The pattern of a text with fields. -/
def ofFormat (source : String) : Except RegistrationError StepPattern :=
  ((FormatPattern.compile source).map .format).mapError (.format source)

/-- The named groups that took part in a match. -/
def namedGroups (names : List (Option String)) (groups : List (Option (List Char))) :
    List Binding :=
  (names.zip groups).filterMap fun
    | (some name, some value) => some (.text name (String.ofList value))
    | _ => none

/-- The bindings of a text that the pattern matches. -/
def attempt (p : StepPattern) (text : String) : Option (List Binding) :=
  match p with
  | exact expected => if expected = text then some [] else none
  | expression _ e => (e.captures text.toList).map (namedGroups e.names)
  | format p => (p.captures text.toList).map (List.map Binding.ofField)
  | custom m => m.attempt text

/-- The pattern in messages. -/
def describe : StepPattern → String
  | exact text => text
  | expression source _ => "/" ++ source ++ "/"
  | format p => p.source
  | custom m => m.description

end StepPattern

end Scenarist
