import Scenarist.Regex.Escape

/-!
# Bracketed sets

Ranges, escapes, named ASCII classes and nested brackets, joined by the operators `&&`, `--` and
`~~` of equal rank.  As outside of brackets, classes by a property of characters are refused, and
brackets may be nested to any depth.
-/

namespace Scenarist.Regex

/-- The operators between the parts of a bracketed set. -/
inductive SetOp
  | inter | diff | symmDiff

def SetOp.apply : SetOp → CharSet → CharSet → CharSet
  | inter => .inter
  | diff => .diff
  | symmDiff => .symmDiff

/-- A bracket that is still open: whether it is negated, the finished part with the operator behind
it, and the union that grows. -/
structure Bracket where
  negated : Bool
  left : Option (CharSet × SetOp)
  items : CharSet

/-- The set of the items read so far. -/
def Bracket.total (f : Flags) (b : Bracket) : CharSet :=
  let items := if f.caseless then .caseless b.items else b.items
  match b.left with
  | none => items
  | some (left, op) => op.apply left items

/-- The set of a bracket that ends here. -/
def Bracket.close (f : Flags) (b : Bracket) : CharSet :=
  if b.negated then .compl (b.total f) else b.total f

def Bracket.add (b : Bracket) (s : CharSet) : Bracket := { b with items := .union b.items s }

def Bracket.operator (f : Flags) (b : Bracket) (op : SetOp) : Bracket :=
  { b with left := some (b.total f, op), items := .empty }

/-- Adds minus signs that stand at the start of a bracket. -/
def leadingMinus (f : Flags) : Nat → Bracket → List Char → Bracket × List Char
  | n + 1, b, '-' :: rest => leadingMinus f n (b.add (.single '-')) (f.skip rest)
  | _, b, s => (b, s)

/-- Opens a bracket from behind its `[`; `n` bounds the number of minus signs. -/
def openBracket (f : Flags) (n : Nat) (s : List Char) : Bracket × List Char :=
  let s := f.skip s
  let (negated, s) := match s with
    | '^' :: rest => (true, f.skip rest)
    | s => (false, s)
  match leadingMinus f n ⟨negated, none, .empty⟩ s with
  | (b, ']' :: rest) =>
    if s.head? = some ']' then (b.add (.single ']'), f.skip rest) else (b, ']' :: rest)
  | (b, s) => (b, s)

/-- Reads a named class such as `[:digit:]` from behind its first bracket. -/
def readNamedClass : List Char → Option (CharSet × List Char)
  | ':' :: s =>
    let (negated, s) := match s with
      | '^' :: rest => (true, rest)
      | s => (false, s)
    match s.dropWhile (· != ':') with
    | ':' :: ']' :: rest =>
      (CharSet.ofName? (String.ofList (s.takeWhile (· != ':')))).map fun set =>
        (if negated then .compl set else set, rest)
    | _ => none
  | _ => none

/-- Reads one character or escape inside brackets. -/
def readSetItem (f : Flags) : List Char → Except RegexFault (Item × List Char)
  | [] => .error .malformed
  | '\\' :: rest => readEscape f rest
  | c :: rest => .ok (.char c, rest)

/-- Reads a range or a single item inside brackets. -/
def readRange (f : Flags) (s : List Char) : Except RegexFault (CharSet × List Char) := do
  let (first, rest) ← readSetItem f s
  let rest := f.skip rest
  let alone : Except RegexFault (CharSet × List Char) :=
    match first with
    | .char c => .ok (.single c, rest)
    | .set s => .ok (s, rest)
    | .look _ => .error .malformed
  match rest with
  | [] => .error .malformed
  | '-' :: after =>
    let next := (f.skip after).head?
    if next = some ']' ∨ next = some '-' then alone
    else
      let (second, rest) ← readSetItem f (f.skip after)
      match first, second with
      | .char low, .char high =>
        if low ≤ high then .ok (.range low high, rest) else .error .malformed
      | _, _ => .error .malformed
  | _ => alone

/-- Reads brackets up to the end of the outermost one; `n` bounds the number of steps. -/
def readBrackets (f : Flags) :
    Nat → Bracket → List Bracket → List Char → Except RegexFault (CharSet × List Char)
  | 0, _, _, _ => .error .malformed
  | n + 1, b, outer, s =>
    match f.skip s with
    | [] => .error .malformed
    | '[' :: rest =>
      match readNamedClass rest with
      | some (named, rest) => readBrackets f n (b.add named) outer rest
      | none =>
        let (inner, rest) := openBracket f n rest
        readBrackets f n inner (b :: outer) rest
    | ']' :: rest =>
      match outer with
      | [] => .ok (b.close f, rest)
      | parent :: outer => readBrackets f n (parent.add (b.close f)) outer rest
    | '&' :: '&' :: rest => readBrackets f n (b.operator f .inter) outer rest
    | '-' :: '-' :: rest => readBrackets f n (b.operator f .diff) outer rest
    | '~' :: '~' :: rest => readBrackets f n (b.operator f .symmDiff) outer rest
    | s =>
      match readRange f s with
      | .error fault => .error fault
      | .ok (found, rest) => readBrackets f n (b.add found) outer rest

/-- Reads a bracketed set from behind its opening bracket; `n` bounds the number of steps. -/
def readSet (f : Flags) (n : Nat) (s : List Char) : Except RegexFault (CharSet × List Char) :=
  let (b, rest) := openBracket f n s
  readBrackets f n b [] rest

end Scenarist.Regex
