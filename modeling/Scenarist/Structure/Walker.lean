import Scenarist.Diagnostic.Failure
import Scenarist.Structure.Token

/-!
# The order of blocks

A walker goes over the tokens of a file and refuses the first one that cannot stand where it stands.
`firstViolation` reports the line of that token.
-/

namespace Scenarist.Structure

open Text Source

/-- The blocks that a token may stand in. -/
inductive Block
  | start | feature | rule | background | scenario | examples
  deriving DecidableEq, Repr

/-- Where a walker is. -/
structure Walker where
  block : Block
  /-- Whether free text may follow. -/
  describing : Bool
  /-- Whether a table or a doc string may follow. -/
  afterStep : Bool
  /-- Whether tags wait for what they belong to. -/
  tagged : Bool
  deriving DecidableEq, Repr

namespace Walker

def start : Walker := ⟨.start, false, false, false⟩

/-- The walker at the start of a block. -/
def enter (b : Block) : Walker := ⟨b, true, false, false⟩

/-- What may come next. -/
def expected (w : Walker) : List TokenClass :=
  if w.tagged then
    match w.block with
    | .start => [.tagLine, .featureLine, .comment, .empty]
    | .scenario | .examples =>
      [.tagLine, .examplesLine, .scenarioLine, .ruleLine, .comment, .empty]
    | _ => [.tagLine, .scenarioLine, .ruleLine, .comment, .empty]
  else
    match w.block, w.afterStep with
    | .start, _ => [.eof, .language, .tagLine, .featureLine, .comment, .empty]
    | .feature, _ | .rule, _ =>
      [.eof, .empty, .comment, .backgroundLine, .tagLine, .scenarioLine, .ruleLine, .other]
    | .background, true =>
      [.eof, .tableRow, .docStringSeparator, .stepLine, .tagLine, .scenarioLine, .ruleLine,
        .comment, .empty]
    | .background, false =>
      [.eof, .empty, .comment, .stepLine, .tagLine, .scenarioLine, .ruleLine, .other]
    | .scenario, true =>
      [.eof, .tableRow, .docStringSeparator, .stepLine, .tagLine, .examplesLine, .scenarioLine,
        .ruleLine, .comment, .empty]
    | .scenario, false =>
      [.eof, .empty, .comment, .stepLine, .tagLine, .examplesLine, .scenarioLine, .ruleLine, .other]
    | .examples, _ =>
      [.eof, .empty, .comment, .tableRow, .tagLine, .examplesLine, .scenarioLine, .ruleLine, .other]

/-- Whether tags may belong to a token in a block. -/
def mayBeTagged (b : Block) (t : Token) : Bool :=
  match b with
  | .start => t == .feature
  | .scenario | .examples => t == .scenario || t == .rule || t == .examples
  | _ => t == .scenario || t == .rule

/-- The walker behind a token, leaving waiting tags aside. -/
def step? (w : Walker) (t : Token) : Option Walker :=
  match t, w.block with
  | .eof, _ => some w
  | .tag, _ => some { w with tagged := true, describing := false, afterStep := false }
  | .feature, .start => some (enter .feature)
  | .background, .feature | .background, .rule => some (enter .background)
  | .scenario, b => if b = .start then none else some (enter .scenario)
  | .rule, b => if b = .start then none else some (enter .rule)
  | .examples, .scenario | .examples, .examples => some (enter .examples)
  | .step, .background | .step, .scenario =>
    some { w with describing := false, afterStep := true }
  | .row, .examples => some { w with describing := false }
  | .row, _ => if w.afterStep then some w else none
  | .docString, _ => if w.afterStep then some { w with afterStep := false } else none
  | .text, _ => if w.describing then some w else none
  | _, _ => none

/-- The walker behind a token; nothing if the token cannot stand here. -/
def accept? (w : Walker) (t : Token) : Option Walker :=
  if w.tagged && t != .tag && !mayBeTagged w.block t then none else w.step? t

end Walker

/-- A token that cannot stand where it stands. -/
structure Violation where
  location : Location
  token : Token
  expected : List TokenClass
  /-- The text of the line. -/
  got : String
  deriving DecidableEq, Repr

def Violation.failure (v : Violation) : EngineFailure :=
  .at_ v.location (", ".intercalate (v.expected.map TokenClass.label)) v.got

/-- Goes over the lines from number `n` on; `previous` is the kind of the line before. Lines of a doc
string that follow one another count once. -/
def walk (t : SourceText) (w : Walker) (previous : Option LineKind) (n : Nat) :
    List (List Char × LineKind) → Option Violation
  | [] =>
    match w.accept? .eof with
    | some _ => none
    | none => some ⟨⟨n, 1⟩, .eof, w.expected, ""⟩
  | (line, kind) :: rest =>
    if kind = .docString ∧ previous = some .docString then walk t w (some kind) (n + 1) rest
    else match token? kind line with
      | none => walk t w (some kind) (n + 1) rest
      | some token =>
        match w.accept? token with
        | some w => walk t w (some kind) (n + 1) rest
        | none => some ⟨t.startOf n, token, w.expected, String.ofList (trim line)⟩

/-- The first token of a file that cannot stand where it stands. -/
def firstViolation (t : SourceText) : Option Violation :=
  walk t .start none 1 (t.lines.zip t.kinds)

end Scenarist.Structure
