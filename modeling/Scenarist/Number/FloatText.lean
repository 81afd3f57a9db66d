import Scenarist.Number.Binary
import Scenarist.Number.Integer

/-!
# Reading floating-point numbers

The accepted texts are an optional sign followed by `inf`, `infinity` or `nan` in any case, or by a
decimal number with an optional point and an optional power of ten. The result is the nearest number
of the format.
-/

namespace Scenarist.Number

/-- Why a text is not a floating-point number. -/
inductive FloatFault
  | empty
  | invalid
  deriving DecidableEq, Repr

def FloatFault.message : FloatFault → String
  | empty => "cannot parse float from empty string"
  | invalid => "invalid float literal"

/-- The number written by digits, continuing from `acc`. -/
def accumulate (acc : Nat) (digits : List Char) : Nat :=
  digits.foldl (fun n c => 10 * n + (digitValue? c).getD 0) acc

def isAsciiDigit (c : Char) : Bool := '0' ≤ c && c ≤ '9'

/-- Reads a power of ten: nothing, or `e`, an optional sign and at least one digit. -/
def readPower : List Char → Option Int
  | [] => some 0
  | e :: rest =>
    if e ≠ 'e' ∧ e ≠ 'E' then none
    else
      let (sign, digits) : Int × List Char := match rest with
        | '+' :: r => (1, r)
        | '-' :: r => (-1, r)
        | r => (1, r)
      if digits.isEmpty || !digits.all isAsciiDigit then none
      else some (sign * accumulate 0 digits)

/-- Reads an unsigned decimal number as digits and a power of ten. -/
def readDecimal (s : List Char) : Option (Nat × Int) :=
  let whole := s.takeWhile isAsciiDigit
  let afterWhole := s.dropWhile isAsciiDigit
  let (fraction, rest) := match afterWhole with
    | '.' :: r => (r.takeWhile isAsciiDigit, r.dropWhile isAsciiDigit)
    | r => ([], r)
  if whole.isEmpty && fraction.isEmpty then none
  else (readPower rest).map fun power =>
    (accumulate (accumulate 0 whole) fraction, power - fraction.length)

/-- Reads an unsigned number. -/
def BinaryFormat.readUnsigned (f : BinaryFormat) (s : List Char) : Option Nat :=
  let lower := s.map Char.toLower
  if lower = "inf".toList ∨ lower = "infinity".toList then some f.infinity
  else if lower = "nan".toList then some f.notANumber
  else (readDecimal s).map fun (digits, power) => f.ofDecimal digits power

/-- Reads a floating-point number as its bit pattern. -/
def BinaryFormat.read (f : BinaryFormat) (s : List Char) : Except FloatFault Nat :=
  let result := match s with
    | '+' :: rest => f.readUnsigned rest
    | '-' :: rest => (f.readUnsigned rest).map (· + f.signBit)
    | s => f.readUnsigned s
  match result with
  | some bits => .ok bits
  | none => .error (if s.isEmpty then .empty else .invalid)

end Scenarist.Number
