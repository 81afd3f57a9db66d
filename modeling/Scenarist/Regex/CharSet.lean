import Scenarist.Text.Blank
import Scenarist.Unicode.CaseFold
import Scenarist.Unicode.DecimalDigit
import Scenarist.Unicode.Word

/-!
# Character sets
-/

namespace Scenarist

/-- A set of characters. -/
inductive CharSet
  | empty
  /-- The characters from the first to the second, both included. -/
  | range (low high : Char)
  /-- Decimal digits of every script. -/
  | digit
  /-- Letters, marks, digits and connectors of every script. -/
  | word
  /-- White space. -/
  | blank
  | union (a b : CharSet)
  | inter (a b : CharSet)
  | compl (a : CharSet)
  /-- The characters that differ at most in case from one in the set. -/
  | caseless (a : CharSet)
  deriving DecidableEq, Repr

namespace CharSet

/-- Membership. -/
def mem : CharSet → Char → Bool
  | empty, _ => false
  | range low high, c => low ≤ c && c ≤ high
  | digit, c => Unicode.isDecimalDigit c
  | word, c => Unicode.isWordChar c
  | blank, c => Text.isBlank c
  | union a b, c => a.mem c || b.mem c
  | inter a b, c => a.mem c && b.mem c
  | compl a, c => !a.mem c
  | caseless a, c => a.mem c || (Unicode.caseVariants c).any a.mem

def single (c : Char) : CharSet := range c c

theorem mem_single {a c : Char} : (single a).mem c = true ↔ c = a := by
  simp only [single, mem, Bool.and_eq_true, decide_eq_true_eq]
  exact ⟨fun h => Char.le_antisymm h.2 h.1, fun h => h ▸ ⟨Char.le_refl c, Char.le_refl c⟩⟩

def ofList (cs : List Char) : CharSet := cs.foldr (fun c s => union (single c) s) empty

def diff (a b : CharSet) : CharSet := inter a (compl b)

/-- The characters that are in one of the sets only. -/
def symmDiff (a b : CharSet) : CharSet := union (diff a b) (diff b a)

def asciiDigit : CharSet := range '0' '9'

def asciiLower : CharSet := range 'a' 'z'

def asciiUpper : CharSet := range 'A' 'Z'

def asciiLetter : CharSet := union asciiLower asciiUpper

def asciiWord : CharSet := union (union asciiLetter asciiDigit) (single '_')

def asciiBlank : CharSet := union (range '\t' '\r') (single ' ')

/-- The ASCII class of a name. -/
def ofName? : String → Option CharSet
  | "alnum" => some (union asciiLetter asciiDigit)
  | "alpha" => some asciiLetter
  | "ascii" => some (range '\x00' '\x7f')
  | "blank" => some (ofList ['\t', ' '])
  | "cntrl" => some (union (range '\x00' '\x1f') (single '\x7f'))
  | "digit" => some asciiDigit
  | "graph" => some (range '!' '~')
  | "lower" => some asciiLower
  | "print" => some (range ' ' '~')
  | "punct" => some (diff (range '!' '~') (union asciiLetter asciiDigit))
  | "space" => some asciiBlank
  | "upper" => some asciiUpper
  | "word" => some asciiWord
  | "xdigit" => some (union asciiDigit (union (range 'a' 'f') (range 'A' 'F')))
  | _ => none

/-- Whether all characters of a set come before the first letter, so that none has a case variant. -/
def precedesLetters : CharSet → Bool
  | empty => true
  | range _ high => high < 'A'
  | union a b => a.precedesLetters && b.precedesLetters
  | _ => false

/-- How much a set adds to the size of a compiled expression, in bytes. Sets of a few ranges are
small; the sets of Unicode properties are not. -/
def weight : CharSet → Nat
  | digit => 3000
  | word => 27000
  | blank => 600
  | union a b | inter a b => max a.weight b.weight
  | compl a => max 300 a.weight
  | caseless a => if a.precedesLetters then a.weight else max 300 a.weight
  | empty | range _ _ => 40

end CharSet

end Scenarist
