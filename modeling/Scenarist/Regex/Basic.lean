import Scenarist.Regex.CharSet

/-!
# Regular expressions

Repetitions are built from two: `opt`, at most once, and `plus`, at least once. A flag says whether a
repetition prefers to go on.
-/

namespace Scenarist

/-- Conditions on the place between two characters. -/
inductive Assertion
  | textStart | textEnd
  | lineStart | lineEnd
  | lineStartCrlf | lineEndCrlf
  | wordBoundary | notWordBoundary
  | wordStart | wordEnd | wordStartHalf | wordEndHalf
  deriving DecidableEq, Repr

/-- A regular expression. -/
inductive Regex
  | empty
  | fail
  | set (s : CharSet)
  | look (a : Assertion)
  | seq (a b : Regex)
  /-- The first alternative is preferred. -/
  | alt (a b : Regex)
  | opt (greedy : Bool) (a : Regex)
  | plus (greedy : Bool) (a : Regex)
  /-- Remembers what `a` matched under a number. -/
  | group (index : Nat) (a : Regex)
  deriving DecidableEq, Repr

/-- Why an expression is refused. -/
inductive RegexFault
  | malformed
  | tooLarge
  deriving DecidableEq, Repr

namespace Regex

def single (c : Char) : Regex := .set (.single c)

/-- One expression after another. -/
def sequence : List Regex → Regex
  | [] => .empty
  | [r] => r
  | r :: rest => .seq r (sequence rest)

/-- The text itself. -/
def text (s : List Char) : Regex := sequence (s.map single)

/-- One of several expressions, the first preferred. -/
def choice : List Regex → Regex
  | [] => .fail
  | [r] => r
  | r :: rest => .alt r (choice rest)

def star (greedy : Bool) (r : Regex) : Regex := .opt greedy (.plus greedy r)

/-- Up to `n` more times, each only after the one before. -/
def upTo (greedy : Bool) (r : Regex) : Nat → Regex
  | 0 => .empty
  | 1 => .opt greedy r
  | n + 1 => .opt greedy (.seq r (upTo greedy r n))

/-- At least `least` times and at most `most` times, if there is a most. -/
def repeated (greedy : Bool) (least : Nat) (most : Option Nat) (r : Regex) : Regex :=
  match least, most with
  | 0, none => star greedy r
  | n + 1, none => sequence (List.replicate n r ++ [.plus greedy r])
  | n, some m =>
    if m ≤ n then sequence (List.replicate n r)
    else sequence (List.replicate n r ++ [upTo greedy r (m - n)])

/-- The size of a compiled expression, in bytes. -/
def weight : Regex → Nat
  | .empty | .fail => 8
  | .set s => s.weight
  | .look _ => 24
  | .seq a b | .alt a b => a.weight + b.weight + 24
  | .opt _ a | .plus _ a => a.weight + 48
  | .group _ a => a.weight + 64

/-- The greatest size of a compiled expression, in bytes. -/
def weightLimit : Nat := 10 * Nat.pow 2 20

end Regex

end Scenarist
