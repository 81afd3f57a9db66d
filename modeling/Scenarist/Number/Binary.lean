/-!
# Binary floating point

A format is given by the number of significand bits, the exponent of the least positive number and
the number of bits of a word. A number is its bit pattern, as a natural number below `2 ^ width`.
`round` takes a quotient of natural numbers to the nearest number of the format, ties to even, and
`magnitude` gives the value of a pattern as a significand and a power of two.
-/

namespace Scenarist.Number

/-- A binary floating-point format. -/
structure BinaryFormat where
  /-- Bits of the significand, the leading one included. -/
  precision : Nat
  /-- The least positive number is two to the minus this. -/
  tiny : Nat
  /-- Bits of a word. -/
  width : Nat
  name : String
  deriving DecidableEq, Repr

/-- Single precision. -/
def BinaryFormat.single : BinaryFormat := ⟨24, 149, 32, "f32"⟩

/-- Double precision. -/
def BinaryFormat.double : BinaryFormat := ⟨53, 1074, 64, "f64"⟩

namespace BinaryFormat

variable (f : BinaryFormat)

/-- The weight of the sign bit. -/
def signBit : Nat := Nat.pow 2 (f.width - 1)

/-- The pattern of positive infinity. -/
def infinity : Nat := f.signBit - Nat.pow 2 (f.precision - 1)

/-- The pattern of a number that is not a number. -/
def notANumber : Nat := f.infinity + Nat.pow 2 (f.precision - 2)

/-- The pattern without its sign. -/
def unsigned (bits : Nat) : Nat := bits % f.signBit

def isNegative (bits : Nat) : Bool := f.signBit ≤ bits

def isInfinite (bits : Nat) : Bool := f.unsigned bits == f.infinity

def isNaN (bits : Nat) : Bool := f.infinity < f.unsigned bits

/-- The nearest integer to `num / den`, a half to the even neighbour. -/
def roundToNat (num den : Nat) : Nat :=
  let q := num / den
  let r := num % den
  if 2 * r < den then q
  else if 2 * r = den then q + q % 2
  else q + 1

/-- The exponent, counted from the least one, for which `num / den` fills the significand. The
lengths of both numbers give it up to one. -/
def scale (num den : Nat) : Nat :=
  let estimate : Int := (Nat.log2 num : Int) - Nat.log2 den - f.precision
  let k := (estimate + f.tiny).toNat
  if num * Nat.pow 2 f.tiny < den * Nat.pow 2 (k + f.precision) then k else k + 1

/-- The pattern nearest to `num / den`. -/
def round (num den : Nat) : Nat :=
  if num = 0 then 0
  else
    let k := f.scale num den
    let m := roundToNat (num * Nat.pow 2 f.tiny) (den * Nat.pow 2 k)
    min f.infinity (m + k * Nat.pow 2 (f.precision - 1))

/-- The significand of a finite pattern and its exponent above the least one. -/
def magnitude (bits : Nat) : Nat × Nat :=
  let unit := Nat.pow 2 (f.precision - 1)
  let u := f.unsigned bits
  let e := u / unit
  if e = 0 then (u % unit, 0) else (u % unit + unit, e - 1)

/-- The pattern nearest to `digits * 10 ^ exponent`. Exponents far outside the format are settled by
the number of digits, before any power is computed. -/
def ofDecimal (digits : Nat) (exponent : Int) : Nat :=
  if digits = 0 then 0
  else
    let size : Int := (Nat.log2 digits : Int) / 3 + exponent
    if 400 < exponent then f.infinity
    else if size < -400 then 0
    else if 0 ≤ exponent then f.round (digits * Nat.pow 10 exponent.toNat) 1
    else f.round digits (Nat.pow 10 (-exponent).toNat)

end BinaryFormat

end Scenarist.Number
