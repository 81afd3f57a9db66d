import Scenarist.Format.Token
import Scenarist.Text.Utf8

/-!
# Tokens of bytes

`tokens` reads a pattern by characters; `lex` reads its bytes. A turn looks at the byte that it has
come to and at the one behind. It takes a byte of text, or it ends the text taken so far and puts a
token behind it. Only the texts of literals and hints are decoded. Both ways give the same tokens
(`lex_encodeUtf8`), and patterns are compiled from those of `tokens`.
-/

namespace Scenarist.Format

open Text

/-- What a token of bytes says; the text of a literal is not decoded yet. -/
inductive ByteKind
  | literal (held : List Nat)
  | field (name hint : Option String)
  | openBrace
  | closeBrace
  deriving DecidableEq, Repr

/-- A token of bytes and the bytes that it covers. -/
structure ByteToken where
  start : Nat
  stop : Nat
  kind : ByteKind
  deriving DecidableEq, Repr

/-- The token with its text decoded. -/
def ByteToken.decoded (t : ByteToken) : Token :=
  ⟨t.start, t.stop,
    match t.kind with
    | .literal held => .literal (decodeLossy held)
    | .field name hint => .field name hint
    | .openBrace => .openBrace
    | .closeBrace => .closeBrace⟩

/-- Why bytes are refused. -/
inductive ByteFault
  /-- The hint of the placeholder at a byte is no UTF-8; it counts as an invalid placeholder. -/
  | notUtf8 (start : Nat) (name : String)
  | pattern (fault : PatternFault)
  deriving DecidableEq, Repr

/-- Whether a byte is an ASCII character with a property. -/
def onAscii (p : Char → Bool) (b : Nat) : Bool := b < 0x80 && p (Char.ofNat b)

/-- The first place from `i` on whose byte does not have a property. -/
def skip (p : Nat → Bool) (data : List Nat) (i : Nat) : Nat :=
  i + ((data.drop i).takeWhile p).length

/-- The bytes from one place up to another. -/
def slice (data : List Nat) (i j : Nat) : List Nat := (data.drop i).take (j - i)

/-- The place of the brace that closes the present one, in the bytes from `i` on; `depth` braces are
open inside. -/
def closingAt? : Nat → Nat → List Nat → Option Nat
  | _, _, [] => none
  | i, depth, b :: rest =>
    if b = '\x7b'.toNat then closingAt? (i + 1) (depth + 1) rest
    else if b = '\x7d'.toNat then
      match depth with
      | 0 => some i
      | depth + 1 => closingAt? (i + 1) depth rest
    else closingAt? (i + 1) depth rest

/-- Reads the hint from place `i` on of the placeholder at `start`: the place where it ends, and its
text. -/
def hintAt (data : List Nat) (start i : Nat) (name : String) : Except ByteFault (Nat × String) :=
  let stop := skip (· != '\x7d'.toNat) data i
  match decodeUtf8 (slice data i stop) with
  | .error _ => .error (.notUtf8 start name)
  | .ok hint =>
    if isHint hint then .ok (stop, String.ofList hint)
    else .error (.pattern (.placeholder .invalid start (some name)))

/-- The name of a placeholder, if it has one. -/
def named (name : String) : Option String := if name.isEmpty then none else some name

/-- Ends the placeholder at `start` with a brace at place `stop`: the place behind it, its name and
its hint. -/
def closeAt (data : List Nat) (start stop : Nat) (name : String) (hint : Option String) :
    Except ByteFault (Nat × Option String × Option String) :=
  if data[stop]? = some '\x7d'.toNat then .ok (stop + 1, named name, hint)
  else .error (.pattern (.placeholder .unclosed start (some name)))

/-- Reads the placeholder at `start` from its hint at place `i` on. -/
def hintedAt (data : List Nat) (start i : Nat) (name : String) :
    Except ByteFault (Nat × Option String × Option String) := do
  let (stop, hint) ← hintAt data start i name
  closeAt data start stop name (some hint)

/-- Reads the placeholder at `start`, which has no hint, from place `i` on. -/
def unhintedAt (data : List Nat) (start i : Nat) (name : String) :
    Except ByteFault (Nat × Option String × Option String) :=
  match closingAt? i 0 (data.drop i) with
  | none => .error (.pattern (.placeholder .unclosed start (some name)))
  | some stop => closeAt data start stop name none

/-- Reads the placeholder at `start`: the place behind it, its name and its hint. -/
def fieldAt (data : List Nat) (start : Nat) :
    Except ByteFault (Nat × Option String × Option String) :=
  let nameEnd := skip (onAscii isNameChar) data (start + 1)
  let name := String.ofList ((slice data (start + 1) nameEnd).map Char.ofNat)
  let blankEnd := skip (onAscii isAsciiBlank) data nameEnd
  let behind := data[blankEnd]?
  if nameEnd < blankEnd && (behind == some ':'.toNat || behind == some '\x7d'.toNat) then
    .error (.pattern (.placeholder .invalid start (some name)))
  else if behind = some ':'.toNat then hintedAt data start (blankEnd + 1) name
  else unhintedAt data start blankEnd name

/-- The lexer between two turns: the place that it has come to, the bytes of text that it holds with
the place where they begin, and the tokens in reverse. -/
structure Lexer where
  pos : Nat
  begun : Nat
  held : List Nat
  done : List ByteToken
  deriving DecidableEq, Repr

namespace Lexer

def start : Lexer := ⟨0, 0, [], []⟩

/-- Takes bytes of text and moves on by `n`. -/
def hold (l : Lexer) (bs : List Nat) (n : Nat) : Lexer :=
  ⟨l.pos + n, if l.held.isEmpty then l.pos else l.begun, l.held ++ bs, l.done⟩

/-- The tokens in reverse when the text that is held ends here. -/
def flushed (l : Lexer) : List ByteToken :=
  if l.held.isEmpty then l.done else ⟨l.begun, l.pos, .literal l.held⟩ :: l.done

/-- Ends the text that is held and puts a token behind it. -/
def put (l : Lexer) (stop : Nat) (kind : ByteKind) : Lexer :=
  ⟨stop, stop, [], ⟨l.pos, stop, kind⟩ :: l.flushed⟩

/-- One turn, at the byte `b`. -/
def turn (data : List Nat) (l : Lexer) (b : Nat) : Except ByteFault Lexer :=
  let next := data[l.pos + 1]?
  if b = '\\'.toNat then
    match next with
    | some d => .ok (l.hold [d] 2)
    | none => .ok (l.hold [b] 1)
  else if b = '\x7b'.toNat then
    if next = some '\x7b'.toNat then .ok (l.hold [b] 2)
    else if next.any (onAscii beginsField) then
      (fun (stop, name, hint) => l.put stop (.field name hint)) <$> fieldAt data l.pos
    else .ok (l.put (l.pos + 1) .openBrace)
  else if b = '\x7d'.toNat then
    if next = some '\x7d'.toNat then .ok (l.hold [b] 2) else .ok (l.put (l.pos + 1) .closeBrace)
  else .ok (l.hold [b] 1)

/-- Makes turns up to the end of the bytes, but not more than `n`. -/
def turns (data : List Nat) : Nat → Lexer → Except ByteFault Lexer
  | 0, l => .ok l
  | n + 1, l =>
    match data[l.pos]? with
    | none => .ok l
    | some b => do turns data n (← l.turn data b)

end Lexer

/-- The tokens of bytes. -/
def lex (data : List Nat) : Except ByteFault (List ByteToken) :=
  (fun l => l.flushed.reverse) <$> Lexer.turns data data.length .start

end Scenarist.Format
