import Scenarist.Number.Binary

/-!
# Shortest decimals

The decimal text of a floating-point number has the fewest digits that still read back as the
number, and among those the digits nearest to it. `shortest` finds them in exact arithmetic: for one
digit, two digits and so on it tries the two neighbours of the number on that decimal grid.
-/

namespace Scenarist.Number

/-- The decimal number `digits * 10 ^ exponent`. -/
structure Decimal where
  digits : Nat
  exponent : Int
  deriving DecidableEq, Repr

/-- The power of ten `10 ^ k` as a numerator and a denominator. -/
def tenTo (k : Int) : Nat × Nat :=
  if 0 ≤ k then (Nat.pow 10 k.toNat, 1) else (1, Nat.pow 10 (-k).toNat)

/-- The greatest `k` with `10 ^ k ≤ num / den`, searched from `k` in steps of one. -/
def decimalExponent (num den : Nat) : Nat → Int → Int
  | 0, k => k
  | fuel + 1, k =>
    let (p, q) := tenTo k
    if num * q < p * den then decimalExponent num den fuel (k - 1)
    else
      let (p', q') := tenTo (k + 1)
      if p' * den ≤ num * q' then decimalExponent num den fuel (k + 1) else k

/-- The numbers that round to a given one, as numerators over a common denominator. -/
structure Neighbourhood where
  low : Nat
  value : Nat
  high : Nat
  denominator : Nat
  /-- Whether the ends round to the number too. -/
  closed : Bool

namespace Neighbourhood

/-- Whether `num / den` lies in the neighbourhood. -/
def contains (h : Neighbourhood) (num den : Nat) : Bool :=
  let x := num * h.denominator
  if h.closed then h.low * den ≤ x && x ≤ h.high * den
  else h.low * den < x && x < h.high * den

/-- The neighbour of the value on the grid of multiples of `10 ^ k` that reads back as the value,
the nearer one if both do, the even one of two that are equally near. -/
def onGrid (h : Neighbourhood) (k : Int) : Option Decimal :=
  let (p, q) := tenTo k
  let below := h.value * q / (h.denominator * p)
  let above := below + 1
  match h.contains (below * p) q, h.contains (above * p) q with
  | true, false => some ⟨below, k⟩
  | false, true => some ⟨above, k⟩
  | false, false => none
  | true, true =>
    let twice := 2 * h.value * q
    let middle := (below + above) * p * h.denominator
    if twice < middle then some ⟨below, k⟩
    else if middle < twice then some ⟨above, k⟩
    else some ⟨below + below % 2, k⟩

end Neighbourhood

/-- The neighbourhood of a finite pattern. The spacing below a power of two is half of that above. -/
def BinaryFormat.neighbourhood (f : BinaryFormat) (bits : Nat) : Neighbourhood :=
  let (m, e) := f.magnitude bits
  let up := Nat.pow 2 (e - f.tiny)
  { low := (4 * m - (if m = Nat.pow 2 (f.precision - 1) ∧ e ≠ 0 then 1 else 2)) * up
    value := 4 * m * up
    high := (4 * m + 2) * up
    denominator := 4 * Nat.pow 2 (f.tiny - e)
    closed := m % 2 == 0 }

/-- A decimal without zeros at its end. -/
def Decimal.trimmed : Nat → Decimal → Decimal
  | 0, d => d
  | fuel + 1, d =>
    if d.digits ≠ 0 ∧ d.digits % 10 = 0 then Decimal.trimmed fuel ⟨d.digits / 10, d.exponent + 1⟩
    else d

/-- The shortest decimal that reads back as a finite, nonzero pattern. -/
def BinaryFormat.shortest (f : BinaryFormat) (bits : Nat) : Decimal :=
  let h := f.neighbourhood bits
  let guess : Int := ((Nat.log2 h.value : Int) - Nat.log2 h.denominator) * 3 / 10
  let top := decimalExponent h.value h.denominator 64 guess
  let found := (List.range 17).findSome? fun (n : Nat) => h.onGrid (top - n)
  (found.getD ⟨0, 0⟩).trimmed 20

namespace Decimal

def digitChars (d : Decimal) : List Char := Nat.toDigits 10 d.digits

/-- The digits with the decimal point in its place and as many zeros as that takes. -/
def positional (d : Decimal) : List Char :=
  let cs := d.digitChars
  let point : Int := cs.length + d.exponent
  if 0 ≤ d.exponent then cs ++ List.replicate d.exponent.toNat '0'
  else if 0 < point then cs.take point.toNat ++ '.' :: cs.drop point.toNat
  else '0' :: '.' :: (List.replicate (-point).toNat '0' ++ cs)

/-- One digit, a point and the others, and the power of ten. -/
def scientific (d : Decimal) : List Char :=
  let cs := d.digitChars
  let power : Int := cs.length + d.exponent - 1
  (match cs with
    | [] => []
    | [c] => [c]
    | c :: rest => c :: '.' :: rest) ++ 'e' :: (toString power).toList

end Decimal

/-- The text of a number in messages: always positional, and without a point for whole numbers. -/
def BinaryFormat.display (f : BinaryFormat) (bits : Nat) : List Char :=
  if f.isNaN bits then "NaN".toList
  else
    (if f.isNegative bits then ['-'] else []) ++
      if f.isInfinite bits then "inf".toList
      else if f.unsigned bits = 0 then ['0']
      else (f.shortest bits).positional

end Scenarist.Number
