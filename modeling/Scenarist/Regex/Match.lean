import Scenarist.Regex.Basic

/-!
# Matching

A `Spot` is a place in a text and a `Hit` a place reached by a match, with the groups remembered on
the way. `Regex.run` lists the places that an expression reaches from a hit, one hit a place, in the
order of preference: the first way to reach a place is the one that counts.
-/

namespace Scenarist

/-- A place in a text: its index, the character before it and the text after it. -/
structure Spot where
  index : Nat
  before : Option Char
  rest : List Char
  deriving DecidableEq, Repr

namespace Spot

def ofText (s : List Char) : Spot := ⟨0, none, s⟩

def wordBefore (p : Spot) : Bool := p.before.any Unicode.isWordChar

def wordAfter (p : Spot) : Bool := p.rest.head?.any Unicode.isWordChar

end Spot

/-- Whether a condition holds at a place. -/
def Assertion.holds (a : Assertion) (p : Spot) : Bool :=
  match a with
  | textStart => p.before.isNone
  | textEnd => p.rest.isEmpty
  | lineStart => p.before.all (· == '\n')
  | lineEnd => p.rest.head?.all (· == '\n')
  | lineStartCrlf =>
    p.before.all (· == '\n') || (p.before == some '\r' && p.rest.head? != some '\n')
  | lineEndCrlf =>
    p.rest.head?.all (· == '\r') || (p.rest.head? == some '\n' && p.before != some '\r')
  | wordBoundary => p.wordBefore != p.wordAfter
  | notWordBoundary => p.wordBefore == p.wordAfter
  | wordStart => !p.wordBefore && p.wordAfter
  | wordEnd => p.wordBefore && !p.wordAfter
  | wordStartHalf => !p.wordBefore
  | wordEndHalf => !p.wordAfter

/-- A place reached, and for each group remembered its number, start and end, the latest first. -/
structure Hit where
  spot : Spot
  groups : List (Nat × Nat × Nat)
  deriving Repr

/-- What a group remembered from a text. -/
def Hit.group? (h : Hit) (text : List Char) (i : Nat) : Option (List Char) :=
  (h.groups.find? fun g => g.1 = i).map fun (_, start, stop) => (text.drop start).take (stop - start)

namespace Regex

/-- The first hit at every place. -/
def firstHits : List Nat → List Hit → List Hit
  | _, [] => []
  | seen, h :: rest =>
    if seen.contains h.spot.index then firstHits seen rest
    else h :: firstHits (h.spot.index :: seen) rest

/-- Goes on with `step` from a hit for as long as it reaches new places and moves on. Gives the places
where a repetition may end, in the order of preference, and all places seen. -/
def sweep (greedy : Bool) (step : Hit → List Hit) :
    Nat → Hit → List Nat → List Hit × List Nat
  | 0, _, seen => ([], seen)
  | n + 1, origin, seen =>
    (step origin).foldl (fun (acc : List Hit × List Nat) h =>
      let (out, seen) := acc
      if seen.contains h.spot.index then (out, seen)
      else
        let seen := h.spot.index :: seen
        let (deeper, seen) :=
          if origin.spot.index < h.spot.index then sweep greedy step n h seen else ([], seen)
        (out ++ if greedy then deeper ++ [h] else h :: deeper, seen)) ([], seen)

/-- The places that an expression reaches from a hit. -/
def run : Regex → Hit → List Hit
  | .empty, h => [h]
  | .fail, _ => []
  | .set s, h =>
    match h.spot.rest with
    | [] => []
    | c :: rest => if s.mem c then [⟨⟨h.spot.index + 1, some c, rest⟩, h.groups⟩] else []
  | .look a, h => if a.holds h.spot then [h] else []
  | .seq a b, h => firstHits [] ((run a h).flatMap (run b))
  | .alt a b, h => firstHits [] (run a h ++ run b h)
  | .opt greedy a, h => firstHits [] (if greedy then run a h ++ [h] else h :: run a h)
  | .plus greedy a, h => (sweep greedy (run a) (h.spot.rest.length + 1) h []).1
  | .group i a, h =>
    (run a h).map fun e => ⟨e.spot, (i, h.spot.index, e.spot.index) :: e.groups⟩

/-- The preferred match from a place or, failing that, from the next place that has one. -/
def search (r : Regex) : Nat → Option Char → List Char → Option Hit
  | i, before, [] => (run r ⟨⟨i, before, []⟩, []⟩).head?
  | i, before, c :: rest =>
    match run r ⟨⟨i, before, c :: rest⟩, []⟩ with
    | h :: _ => some h
    | [] => search r (i + 1) (some c) rest

/-- The texts of the groups numbered from one to `count` in the first match, if there is a match. -/
def captures (r : Regex) (count : Nat) (text : List Char) : Option (List (Option (List Char))) :=
  (search r 0 none text).map fun h => (List.range count).map fun i => h.group? text (i + 1)

end Regex

end Scenarist
