import Scenarist.Gherkin.Dialect
import Scenarist.Gherkin.Tree

/-!
# Phrases

A phrase reads text from a cursor on, or does not apply. What a phrase remembers is not taken back
when another phrase is tried in its place: the dialect, the type of the last step, whether something
was read that spoils the whole text, and the furthest place at which something else was expected.
-/

namespace Scenarist.Gherkin

/-- A place in the text. -/
structure Cursor where
  index : Nat
  /-- One more than the number of line ends read so far. -/
  line : Nat
  rest : List Char

/-- What is remembered along the way. -/
structure Memory where
  furthest : Nat
  dialect : Dialect
  lastType : Option StepType
  spoiled : Bool

/-- Reads text from a cursor on. -/
def Phrase (α : Type) : Type := Cursor → Memory → Option (α × Cursor) × Memory

instance : Monad Phrase where
  pure a := fun c m => (some (a, c), m)
  bind p f := fun c m =>
    match p c m with
    | (none, m) => (none, m)
    | (some (a, c), m) => f a c m

/-- Tries one phrase and then, at the same place, another. -/
instance {α : Type} : OrElse (Phrase α) where
  orElse p q := fun c m =>
    match p c m with
    | (none, m) => q () c m
    | found => found

namespace Phrase

variable {α β : Type}

/-- Notes that something else was expected `ahead` characters from here. -/
def note (ahead : Nat) : Phrase Unit := fun c m =>
  (some ((), c), { m with furthest := max m.furthest (c.index + ahead) })

/-- Does not apply. -/
def fail : Phrase α := fun _ m => (none, m)

/-- Something else is expected here. -/
def miss : Phrase α := do
  note 0
  fail

/-- Reads without noting what is expected. -/
def quiet (p : Phrase α) : Phrase α := fun c m =>
  let (found, after) := p c m
  (found, { after with furthest := m.furthest })

/-- Applies where another phrase does not, and reads nothing. -/
def absent (p : Phrase α) : Phrase Unit := fun c m =>
  match quiet p c m with
  | (none, m) => (some ((), c), m)
  | (some _, m) => (none, m)

def optional (p : Phrase α) : Phrase (Option α) := (some <$> p) <|> pure none

/-- Reads at most `n` times. -/
def upTo (p : Phrase α) : Nat → Phrase (List α)
  | 0 => pure []
  | n + 1 => (do
      let a ← p
      let more ← upTo p n
      pure (a :: more)) <|> pure []

/-- Reads as often as the phrase applies. -/
def many (p : Phrase α) : Phrase (List α) := fun c m => upTo p (c.rest.length + 1) c m

/-- Reads at least once. -/
def atLeastOnce (p : Phrase α) : Phrase (List α) := do
  let a ← p
  let more ← many p
  pure (a :: more)

/-- Reads at least once, with something in between. -/
def joined (p : Phrase α) (between : Phrase β) : Phrase (List α) := do
  let a ← p
  let more ← many (do
    let _ ← between
    p)
  pure (a :: more)

/-- Reads any number of times, with something in between. -/
def list (p : Phrase α) (between : Phrase β) : Phrase (List α) := joined p between <|> pure []

def here : Phrase Cursor := fun c m => (some (c, c), m)

def memory : Phrase Memory := fun c m => (some (m, c), m)

def remember (f : Memory → Memory) : Phrase Unit := fun c m => (some ((), c), f m)

/-- Goes forward by `n` characters, which hold no counted line end. -/
def advance (n : Nat) : Phrase Unit := fun c m =>
  (some ((), { c with index := c.index + n, rest := c.rest.drop n }), m)

/-- Reads a character with a property. -/
def char (ok : Char → Bool) : Phrase Char := do
  match (← here).rest with
  | [] => miss
  | c :: _ =>
    if ok c then
      advance 1
      pure c
    else miss

def anyChar : Phrase Char := char fun _ => true

/-- Reads the given text. -/
def literal (s : String) : Phrase Unit := do
  if s.toList.isPrefixOf (← here).rest then advance s.length else miss

/-- Requires a condition of what was just read. -/
def ensure (ok : Bool) : Phrase Unit := if ok then pure () else miss

end Phrase

end Scenarist.Gherkin
