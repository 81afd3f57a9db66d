import Scenarist.Regex.Basic

/-!
# Faults of patterns
-/

namespace Scenarist

/-- What is wrong with a placeholder or a brace. -/
inductive PlaceholderFault
  | invalid
  | unclosed
  | duplicate
  | unmatchedClose
  | unbalanced
  deriving DecidableEq, Repr

def PlaceholderFault.reason : PlaceholderFault → String
  | invalid => "invalid placeholder in step pattern"
  | unclosed => "missing closing '\x7d' for placeholder"
  | duplicate => "duplicate placeholder name in step pattern"
  | unmatchedClose => "unmatched closing brace '\x7d' in step pattern"
  | unbalanced => "unbalanced braces in step pattern"

/-- Why a pattern is refused. -/
inductive PatternFault
  /-- The fault, its byte offset and the name of the placeholder that it belongs to. -/
  | placeholder (fault : PlaceholderFault) (position : Nat) (name : Option String)
  | regex (fault : RegexFault)
  deriving DecidableEq, Repr

/-- The message of a placeholder fault; a fault of an expression has no message of its own. -/
def PatternFault.message? : PatternFault → Option String
  | placeholder fault position name =>
    let place := s!" at byte {position} (zero-based)"
    match name.filter (· != "") with
    | some name =>
      let naming := " for placeholder `" ++ name ++ "`"
      some (fault.reason ++ naming ++ place)
    | none => some (fault.reason ++ place)
  | regex _ => none

end Scenarist
