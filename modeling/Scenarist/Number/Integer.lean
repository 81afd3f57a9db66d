/-!
# Integers of a fixed width

`IntType` lists the integer types a value may have. `IntType.read` reads an optional sign and ASCII
digits and says why a text is not a number of the type.
-/

namespace Scenarist.Number

/-- The integer types. -/
inductive IntType
  | u8 | u16 | u32 | u64 | u128 | usize
  | i8 | i16 | i32 | i64 | i128 | isize
  deriving DecidableEq, Repr

namespace IntType

def name : IntType → String
  | u8 => "u8" | u16 => "u16" | u32 => "u32" | u64 => "u64" | u128 => "u128" | usize => "usize"
  | i8 => "i8" | i16 => "i16" | i32 => "i32" | i64 => "i64" | i128 => "i128" | isize => "isize"

/-- The number of bits. -/
def width : IntType → Nat
  | u8 | i8 => 8
  | u16 | i16 => 16
  | u32 | i32 => 32
  | u64 | i64 | usize | isize => 64
  | u128 | i128 => 128

def isSigned : IntType → Bool
  | i8 | i16 | i32 | i64 | i128 | isize => true
  | _ => false

/-- The least number of the type. -/
def least (t : IntType) : Int := if t.isSigned then -(Nat.pow 2 (t.width - 1) : Int) else 0

/-- The greatest number of the type. -/
def greatest (t : IntType) : Int :=
  (Nat.pow 2 (if t.isSigned then t.width - 1 else t.width) : Int) - 1

end IntType

/-- Why a text is not a number of an integer type. -/
inductive IntFault
  | empty
  | invalidDigit
  | tooLarge
  | tooSmall
  deriving DecidableEq, Repr

def IntFault.message : IntFault → String
  | empty => "cannot parse integer from empty string"
  | invalidDigit => "invalid digit found in string"
  | tooLarge => "number too large to fit in target type"
  | tooSmall => "number too small to fit in target type"

/-- The value of an ASCII digit. -/
def digitValue? (c : Char) : Option Nat :=
  if '0' ≤ c ∧ c ≤ '9' then some (c.toNat - '0'.toNat) else none

/-- The value of a hexadecimal digit. -/
def hexDigitValue? (c : Char) : Option Nat :=
  if '0' ≤ c ∧ c ≤ '9' then some (c.toNat - '0'.toNat)
  else if 'a' ≤ c ∧ c ≤ 'f' then some (c.toNat - 'a'.toNat + 10)
  else if 'A' ≤ c ∧ c ≤ 'F' then some (c.toNat - 'A'.toNat + 10)
  else none

/-- Refuses a number outside the range of the type. -/
def IntType.fit (t : IntType) (n : Int) : Except IntFault Int :=
  if n < t.least then .error .tooSmall
  else if t.greatest < n then .error .tooLarge
  else .ok n

/-- Reads digits to the right of the number `acc`, away from zero in the direction `sign`; the first
character that is no digit or leaves the range decides. -/
def IntType.readDigits (t : IntType) (sign : Int) : Int → List Char → Except IntFault Int
  | acc, [] => .ok acc
  | acc, c :: rest =>
    match digitValue? c with
    | none => .error .invalidDigit
    | some d =>
      match t.fit (10 * acc + sign * d) with
      | .error e => .error e
      | .ok n => t.readDigits sign n rest

/-- Reads a number: an optional sign, a minus only for signed types, and at least one digit. -/
def IntType.read (t : IntType) : List Char → Except IntFault Int
  | [] => .error .empty
  | ['+'] | ['-'] => .error .invalidDigit
  | '+' :: digits => t.readDigits 1 0 digits
  | '-' :: digits =>
    if t.isSigned then t.readDigits (-1) 0 digits else .error .invalidDigit
  | digits => t.readDigits 1 0 digits

end Scenarist.Number
