import Scenarist.Handler.Arguments
import Scenarist.Number.Shortest

/-!
# Replies of handlers

A handler ends in one of three ways: it is done, it reports an error, or it breaks off with a payload
of any type. Breaking off counts as an error whose message is the text of the payload.
-/

namespace Scenarist

/-- What a handler breaks off with. -/
inductive Payload
  | text (s : String)
  | value (v : Value)
  /-- A payload of a type that has no text. -/
  | other
  deriving DecidableEq, Repr

namespace Payload

/-- The text of a payload without one. -/
def unknownText : String := "Any \x7b .. \x7d"

/-- The text of a payload: texts themselves, and numbers of up to 64 bits. -/
def message : Payload → String
  | text s => s
  | value (.text s) => s
  | value (.int t n) => if t.width ≤ 64 then toString n else unknownText
  | value (.float f bits) => String.ofList (f.display bits)
  | _ => unknownText

end Payload

/-- An error that a handler reports. -/
inductive StepError
  | assertion (message : String)
  | broken (message : String)
  | argument (fault : ArgumentFault)
  | other (message : String)
  deriving DecidableEq, Repr

def StepError.message : StepError → String
  | assertion message => "assertion failed: " ++ message
  | broken message => "step panicked: " ++ message
  | argument fault => fault.message
  | other message => message

/-- How the call of a handler ends. -/
inductive Reply
  | done
  | failed (error : StepError)
  | brokeOff (payload : Payload)
  deriving DecidableEq, Repr

/-- The error of a reply, if the step is not done. -/
def Reply.error? : Reply → Option StepError
  | done => none
  | failed error => some error
  | brokeOff payload => some (.broken payload.message)

/-- Code that runs for a step: it may read and change a state that outlives the call. -/
abbrev Handler (σ : Type) := StepArguments → σ → Reply × σ

end Scenarist
