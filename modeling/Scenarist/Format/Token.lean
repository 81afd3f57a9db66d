import Scenarist.Format.Fault
import Scenarist.Text.Blank

/-!
# Tokens of format patterns

A pattern is text with placeholders in braces: `{name:hint}`, with both parts optional. A
backslash takes the character after it as text, a doubled brace is a brace, and a brace that begins
no placeholder is a token of its own. `tokens` cuts a pattern into tokens with their byte ranges.
-/

namespace Scenarist.Format

open Text

/-- What a token says. -/
inductive TokenKind
  | literal (text : List Char)
  | field (name hint : Option String)
  | openBrace
  | closeBrace
  deriving DecidableEq, Repr

/-- A token and the bytes that it covers. -/
structure Token where
  start : Nat
  stop : Nat
  kind : TokenKind
  deriving DecidableEq, Repr

/-- The number of bytes of a text. -/
def bytes : List Char → Nat
  | [] => 0
  | c :: rest => c.utf8Size + bytes rest

def isNameChar (c : Char) : Bool := c.isAlphanum || c == '_'

/-- Whether a character behind a brace begins a placeholder. -/
def beginsField (c : Char) : Bool := c.isAlpha || c == '_' || c == ':' || c == '\x7d'

/-- The text behind the brace that closes the present one; `depth` braces are open inside. -/
def afterClosing : Nat → List Char → Option (List Char)
  | _, [] => none
  | depth, c :: rest =>
    if c = '\x7b' then afterClosing (depth + 1) rest
    else if c = '\x7d' then
      match depth with
      | 0 => some rest
      | depth + 1 => afterClosing depth rest
    else afterClosing depth rest

/-- Whether a text may be a hint. -/
def isHint (s : List Char) : Bool :=
  !s.isEmpty && s.all fun c => !isAsciiBlank c && c != '\x7b' && c != '\x7d'

/-- Reads a placeholder from behind its opening brace at byte `start`: its name, its hint and what
follows it. -/
def readField (start : Nat) (s : List Char) :
    Except PatternFault (Option String × Option String × List Char) :=
  let name := s.takeWhile isNameChar
  let afterName := s.dropWhile isNameChar
  let afterBlanks := afterName.dropWhile isAsciiBlank
  let fault := fun (f : PlaceholderFault) =>
    Except.error (PatternFault.placeholder f start (some (String.ofList name)))
  let named := if name.isEmpty then none else some (String.ofList name)
  if afterName.head?.any isAsciiBlank && afterBlanks.head?.any (fun c => c == ':' || c == '\x7d') then
    fault .invalid
  else match afterBlanks with
    | ':' :: rest =>
      let hint := rest.takeWhile (· != '\x7d')
      if !isHint hint then fault .invalid
      else match rest.dropWhile (· != '\x7d') with
        | [] => fault .unclosed
        | _ :: rest => .ok (named, some (String.ofList hint), rest)
    | rest =>
      match afterClosing 0 rest with
      | none => fault .unclosed
      | some rest => .ok (named, none, rest)

/-- A character of text, or a token that is no text. -/
inductive Mark
  | char (c : Char)
  | other (kind : TokenKind)

/-- Reads one mark from the non-empty text `c :: s` at byte `start`. -/
def readMark (start : Nat) (c : Char) (s : List Char) : Except PatternFault (Mark × List Char) :=
  if c = '\\' then
    match s with
    | [] => .ok (.char '\\', [])
    | d :: rest => .ok (.char d, rest)
  else if c = '\x7b' then
    match s with
    | [] => .ok (.other .openBrace, [])
    | d :: rest =>
      if d = '\x7b' then .ok (.char '\x7b', rest)
      else if beginsField d then
        (fun (name, hint, rest) => (.other (.field name hint), rest)) <$> readField start s
      else .ok (.other .openBrace, s)
  else if c = '\x7d' then
    match s with
    | '\x7d' :: rest => .ok (.char '\x7d', rest)
    | _ => .ok (.other .closeBrace, s)
  else .ok (.char c, s)

/-- Puts a mark in front of tokens; a character joins the text behind it. -/
def Mark.cons (m : Mark) (start stop : Nat) (ts : List Token) : List Token :=
  match m, ts with
  | .char c, ⟨_, last, .literal text⟩ :: rest => ⟨start, last, .literal (c :: text)⟩ :: rest
  | .char c, ts => ⟨start, stop, .literal [c]⟩ :: ts
  | .other kind, ts => ⟨start, stop, kind⟩ :: ts

/-- The tokens of a text that begins at byte `start`; `n` bounds the number of marks. -/
def tokensFrom : Nat → Nat → List Char → Except PatternFault (List Token)
  | _, _, [] => .ok []
  | 0, _, _ => .ok []
  | n + 1, start, c :: s => do
    let (mark, rest) ← readMark start c s
    let stop := start + (bytes (c :: s) - bytes rest)
    let ts ← tokensFrom n stop rest
    .ok (mark.cons start stop ts)

/-- The tokens of a pattern. -/
def tokens (s : List Char) : Except PatternFault (List Token) := tokensFrom s.length 0 s

end Scenarist.Format
