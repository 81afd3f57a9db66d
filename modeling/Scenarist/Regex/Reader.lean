import Scenarist.Regex.Brackets
import Scenarist.Regex.Match

/-!
# Reading regular expressions

`Expression.read` reads an expression from left to right and keeps a list of the groups that are still
open. Flags hold up to the end of the group that they stand in. Look-around and references to groups
are refused, as are group names that are empty or repeated, and expressions that grow too large.

Two things differ from a full grammar. Classes by a property of characters (`\p`, `\P`) are refused,
since only the classes of digits, word characters and white space have tables here; and there is no
limit on the depth to which groups are nested, only the one on the size of the expression.
-/

namespace Scenarist

/-- An expression that was read, with the names of its groups in the order of their numbers. -/
structure Expression where
  body : Regex
  names : List (Option String)
  deriving DecidableEq, Repr

namespace Regex

/-- A group that is still open. Items and alternatives are kept in reverse; a directive that only
sets flags takes the place of an item, so that it is not repeated. -/
structure OpenGroup where
  /-- The number of the group, if it remembers its match. -/
  index : Option Nat
  /-- The flags to return to behind the group. -/
  outerFlags : Flags
  alternatives : List Regex
  items : List (Option Regex)

namespace OpenGroup

def add (g : OpenGroup) (r : Regex) : OpenGroup := { g with items := some r :: g.items }

/-- The alternative that is being read. -/
def current (g : OpenGroup) : Regex := sequence (g.items.reverse.filterMap id)

/-- Begins another alternative. -/
def bar (g : OpenGroup) : OpenGroup :=
  { g with alternatives := g.current :: g.alternatives, items := [] }

/-- The expression of a group that ends here. -/
def close (g : OpenGroup) : Regex :=
  let body := choice (g.current :: g.alternatives).reverse
  match g.index with
  | some i => .group i body
  | none => body

end OpenGroup

/-- What has been read so far. -/
structure Progress where
  flags : Flags
  /-- The innermost open group. -/
  inner : OpenGroup
  outer : List OpenGroup
  /-- The names of the numbered groups, the latest first. -/
  names : List (Option String)

namespace Progress

def start : Progress := ⟨{}, ⟨none, {}, [], []⟩, [], []⟩

def add (p : Progress) (r : Regex) : Progress := { p with inner := p.inner.add r }

/-- Opens a group that remembers its match. -/
def openNumbered (p : Progress) (name : Option String) : Progress :=
  { p with
    inner := ⟨some (p.names.length + 1), p.flags, [], []⟩
    outer := p.inner :: p.outer
    names := name :: p.names }

/-- Opens a group with flags of its own. -/
def openPlain (p : Progress) (flags : Flags) : Progress :=
  { p with
    flags := flags
    inner := ⟨none, p.flags, [], []⟩
    outer := p.inner :: p.outer }

/-- Ends the innermost group. -/
def closeGroup (p : Progress) : Except RegexFault Progress :=
  match p.outer with
  | [] => .error .malformed
  | parent :: outer =>
    .ok { p with
      flags := p.inner.outerFlags
      inner := parent.add p.inner.close
      outer := outer }

/-- Repeats the last item. -/
def repeatLast (p : Progress) (lazy : Bool) (least : Nat) (most : Option Nat) :
    Except RegexFault Progress :=
  match p.inner.items with
  | some r :: items =>
    if weightLimit < r.weight * max 1 (max least (most.getD 0)) then .error .tooLarge
    else
      let greedy := lazy == p.flags.swapGreed
      .ok { p with inner := { p.inner with items := some (repeated greedy least most r) :: items } }
  | _ => .error .malformed

end Progress

/-- One character, in any case if the flags say so. -/
def charIn (f : Flags) (c : Char) : Regex :=
  .set (if f.caseless then .caseless (.single c) else .single c)

/-- What a point stands for. -/
def anyChar (f : Flags) : Except RegexFault Regex :=
  if !f.unicode then .error .malformed
  else if f.dotAll then .ok (.set (.compl .empty))
  else if f.crlf then .ok (.set (.compl (.ofList ['\r', '\n'])))
  else .ok (.set (.compl (.single '\n')))

def startAssertion (f : Flags) : Assertion :=
  if !f.multiLine then .textStart else if f.crlf then .lineStartCrlf else .lineStart

def endAssertion (f : Flags) : Assertion :=
  if !f.multiLine then .textEnd else if f.crlf then .lineEndCrlf else .lineEnd

/-- Whether a character may stand in the name of a group. -/
def isNameChar (first : Bool) (c : Char) : Bool :=
  c == '_' || (Unicode.isWordChar c && !(first && Unicode.isDecimalDigit c)) ||
    (!first && (c == '.' || c == '[' || c == ']'))

/-- Reads the name of a group up to `>`. -/
def readName (used : List (Option String)) (s : List Char) :
    Except RegexFault (String × List Char) :=
  let name := s.takeWhile (· != '>')
  match s.dropWhile (· != '>') with
  | [] => .error .malformed
  | _ :: rest =>
    let ok := match name with
      | [] => false
      | c :: cs => isNameChar true c && cs.all (isNameChar false)
    let text := String.ofList name
    if ok && !used.contains (some text) then .ok (text, rest) else .error .malformed

/-- Reads flags up to `)` or `:`, which is given back. -/
def readFlags : Flags → Bool → List Char → Bool → List Char → Except RegexFault (Flags × List Char)
  | _, _, _, _, [] => .error .malformed
  | f, on, seen, dangling, c :: rest =>
    if c = ':' ∨ c = ')' then if dangling then .error .malformed else .ok (f, c :: rest)
    else if seen.contains c then .error .malformed
    else if c = '-' then readFlags f false (c :: seen) true rest
    else match f.put c on with
      | some f => readFlags f on (c :: seen) false rest
      | none => .error .malformed

/-- Reads what opens a group from behind its bracket. -/
def readOpening (p : Progress) (s : List Char) : Except RegexFault (Progress × List Char) :=
  let named := fun (rest : List Char) =>
    (readName p.names rest).map fun (name, rest) => (p.openNumbered (some name), rest)
  match p.flags.skip s with
  | '?' :: 'P' :: '<' :: rest => named rest
  | '?' :: '<' :: '=' :: _ | '?' :: '<' :: '!' :: _ => .error .malformed
  | '?' :: '<' :: rest => named rest
  | '?' :: rest =>
    match readFlags p.flags true [] false rest with
    | .error fault => .error fault
    | .ok (flags, ':' :: after) => .ok (p.openPlain flags, after)
    | .ok (flags, after) =>
      if rest.head? = some ')' then .error .malformed
      else .ok ({ p with flags := flags, inner := { p.inner with items := none :: p.inner.items } },
        after.drop 1)
  | rest => .ok (p.openNumbered none, rest)

/-- Whether a repetition is followed by the mark that turns its preference around. -/
def readLazy : List Char → Bool × List Char
  | '?' :: rest => (true, rest)
  | rest => (false, rest)

/-- The largest number of repetitions that can be written. -/
def countLimit : Nat := Nat.pow 2 32 - 1

/-- Reads a number between blanks; nothing when no digit stands there. -/
def readCount (s : List Char) : Except RegexFault (Option Nat × List Char) :=
  let s := s.dropWhile Text.isBlank
  let digits := s.takeWhile Char.isDigit
  let rest := (s.dropWhile Char.isDigit).dropWhile Text.isBlank
  let n := digits.foldl (fun n c => 10 * n + (Number.digitValue? c).getD 0) 0
  if digits.isEmpty then .ok (none, rest)
  else if countLimit < n then .error .malformed
  else .ok (some n, rest)

/-- Reads the bounds of a counted repetition from behind the opening brace. -/
def readBounds (f : Flags) (s : List Char) :
    Except RegexFault (Nat × Option Nat × List Char) := do
  match ← readCount (f.skip s) with
  | (none, _) => .error .malformed
  | (some least, rest) =>
    match rest with
    | '\x7d' :: rest => .ok (least, some least, rest)
    | ',' :: rest =>
      match f.skip rest with
      | '\x7d' :: rest => .ok (least, none, rest)
      | rest =>
        match ← readCount rest with
        | (some most, '\x7d' :: rest) =>
          if least ≤ most then .ok (least, some most, rest) else .error .malformed
        | _ => .error .malformed
    | _ => .error .malformed

/-- Reads an expression up to its end; `n` bounds the number of steps. -/
def readItems : Nat → Progress → List Char → Except RegexFault Progress
  | 0, _, _ => .error .malformed
  | n + 1, p, s =>
    let repeating := fun (least : Nat) (most : Option Nat) (rest : List Char) => do
      let (lazy, rest) := readLazy rest
      readItems n (← p.repeatLast lazy least most) rest
    match p.flags.skip s with
    | [] => .ok p
    | '(' :: rest => do
      let (p, rest) ← readOpening p rest
      readItems n p rest
    | ')' :: rest => do readItems n (← p.closeGroup) rest
    | '|' :: rest => readItems n { p with inner := p.inner.bar } rest
    | '[' :: rest => do
      let (found, rest) ← readSet p.flags n rest
      readItems n (p.add (.set found)) rest
    | '?' :: rest => repeating 0 (some 1) rest
    | '*' :: rest => repeating 0 none rest
    | '+' :: rest => repeating 1 none rest
    | '\x7b' :: rest => do
      let (least, most, rest) ← readBounds p.flags rest
      repeating least most rest
    | '.' :: rest => do readItems n (p.add (← anyChar p.flags)) rest
    | '^' :: rest => readItems n (p.add (.look (startAssertion p.flags))) rest
    | '$' :: rest => readItems n (p.add (.look (endAssertion p.flags))) rest
    | '\\' :: rest => do
      let (item, rest) ← readEscape p.flags rest
      match item with
      | .char c => readItems n (p.add (charIn p.flags c)) rest
      | .set found => readItems n (p.add (.set found)) rest
      | .look a => readItems n (p.add (.look a)) rest
    | c :: rest => readItems n (p.add (charIn p.flags c)) rest

end Regex

open Regex

/-- Reads an expression. -/
def Expression.read (s : List Char) : Except RegexFault Expression := do
  let p ← readItems (s.length + 1) .start s
  if p.outer.isEmpty then
    let body := p.inner.close
    if weightLimit < body.weight then .error .tooLarge else .ok ⟨body, p.names.reverse⟩
  else .error .malformed

/-- What the groups of an expression remember of its first match in a text. -/
def Expression.captures (p : Expression) (s : List Char) : Option (List (Option (List Char))) :=
  p.body.captures p.names.length s

end Scenarist
