import Scenarist.Number.Integer
import Scenarist.Regex.Basic

/-!
# Flags and escapes

What a backslash stands for, outside and inside brackets: a character, a class of digits, word
characters or white space, or a condition on a place.  Classes by a property of characters (`\p`,
`\P`) are no part of the grammar that is read here; they are refused like an escape that stands for
nothing.
-/

namespace Scenarist.Regex

/-- The flags in force. -/
structure Flags where
  caseless : Bool := false
  multiLine : Bool := false
  dotAll : Bool := false
  swapGreed : Bool := false
  unicode : Bool := true
  spaced : Bool := false
  crlf : Bool := false
  deriving DecidableEq, Repr

/-- Sets or clears the flag of a letter. -/
def Flags.put (f : Flags) (letter : Char) (on : Bool) : Option Flags :=
  match letter with
  | 'i' => some { f with caseless := on }
  | 'm' => some { f with multiLine := on }
  | 's' => some { f with dotAll := on }
  | 'U' => some { f with swapGreed := on }
  | 'u' => some { f with unicode := on }
  | 'x' => some { f with spaced := on }
  | 'R' => some { f with crlf := on }
  | _ => none

/-- The text behind blanks and comments; a comment runs from `#` to the end of its line. -/
def skipSpaced (inComment : Bool) : List Char → List Char
  | [] => []
  | c :: rest =>
    if inComment then skipSpaced (c != '\n') rest
    else if Text.isBlank c then skipSpaced false rest
    else if c = '#' then skipSpaced true rest
    else c :: rest

/-- Drops blanks and comments where they do not count. -/
def Flags.skip (f : Flags) (s : List Char) : List Char := if f.spaced then skipSpaced false s else s

/-- Characters with a meaning of their own. -/
def isMeta (c : Char) : Bool := "\\.+*?()|[]\x7b\x7d^$#&-~".toList.contains c

/-- Characters that stand for themselves behind a backslash. -/
def isEscapable (c : Char) : Bool :=
  isMeta c || (c.toNat < 0x80 && !c.isAlphanum && c != '<' && c != '>')

/-- The text that matches `s` and nothing else. -/
def escape (s : List Char) : List Char :=
  s.flatMap fun c => if isMeta c then ['\\', c] else [c]

/-- What an item of an expression stands for. -/
inductive Item
  | char (c : Char)
  | set (s : CharSet)
  | look (a : Assertion)

/-- The character whose code point is written by hexadecimal digits. -/
def codePoint (digits : List Char) : Except RegexFault Char :=
  match digits.mapM Number.hexDigitValue? with
  | none | some [] => .error .malformed
  | some ds =>
    let n := ds.foldl (fun n d => min (16 * n + d) 0x110000) 0
    if n < 0xD800 ∨ (0xDFFF < n ∧ n < 0x110000) then .ok (Char.ofNat n) else .error .malformed

/-- Reads a code point of `width` digits, or of any number of digits between braces. -/
def readCodePoint (width : Nat) : List Char → Except RegexFault (Item × List Char)
  | '\x7b' :: rest =>
    match rest.dropWhile (· != '\x7d') with
    | [] => .error .malformed
    | _ :: after => (fun c => (.char c, after)) <$> codePoint (rest.takeWhile (· != '\x7d'))
  | s =>
    if s.length < width then .error .malformed
    else (fun c => (.char c, s.drop width)) <$> codePoint (s.take width)

/-- The boundary named between braces behind `\b`. -/
def namedBoundary? : String → Option Assertion
  | "start" => some .wordStart
  | "end" => some .wordEnd
  | "start-half" => some .wordStartHalf
  | "end-half" => some .wordEndHalf
  | _ => none

/-- Reads what follows `\b`: a named boundary, or nothing when no name is begun. -/
def readBoundary : List Char → Except RegexFault (Item × List Char)
  | '\x7b' :: c :: rest =>
    if c.isAlpha || c == '-' then
      let named := c :: rest
      match named.dropWhile (· != '\x7d') with
      | [] => .error .malformed
      | _ :: after =>
        match namedBoundary? (String.ofList (named.takeWhile (· != '\x7d'))) with
        | some a => .ok (.look a, after)
        | none => .error .malformed
    else .ok (.look .wordBoundary, '\x7b' :: c :: rest)
  | s => .ok (.look .wordBoundary, s)

/-- A class that may be negated; outside Unicode only the plain class is text. -/
def classItem (f : Flags) (negated : Bool) (wide ascii : CharSet) : Except RegexFault Item :=
  if f.unicode then .ok (.set (if negated then .compl wide else wide))
  else if negated then .error .malformed
  else .ok (.set ascii)

/-- Reads an escape from behind its backslash. -/
def readEscape (f : Flags) : List Char → Except RegexFault (Item × List Char)
  | [] => .error .malformed
  | c :: rest =>
    let item := fun (e : Except RegexFault Item) => e.map fun i => (i, rest)
    match c with
    | 'x' => readCodePoint 2 rest
    | 'u' => readCodePoint 4 rest
    | 'U' => readCodePoint 8 rest
    | 'd' => item (classItem f false .digit .asciiDigit)
    | 'D' => item (classItem f true .digit .asciiDigit)
    | 'w' => item (classItem f false .word .asciiWord)
    | 'W' => item (classItem f true .word .asciiWord)
    | 's' => item (classItem f false .blank .asciiBlank)
    | 'S' => item (classItem f true .blank .asciiBlank)
    | 'a' => .ok (.char '\x07', rest)
    | 'f' => .ok (.char '\x0c', rest)
    | 't' => .ok (.char '\t', rest)
    | 'n' => .ok (.char '\n', rest)
    | 'r' => .ok (.char '\r', rest)
    | 'v' => .ok (.char '\x0b', rest)
    | 'A' => .ok (.look .textStart, rest)
    | 'z' => .ok (.look .textEnd, rest)
    | 'b' => readBoundary rest
    | 'B' => .ok (.look .notWordBoundary, rest)
    | '<' => .ok (.look .wordStart, rest)
    | '>' => .ok (.look .wordEnd, rest)
    | c => if isEscapable c then .ok (.char c, rest) else .error .malformed

end Scenarist.Regex
