import Scenarist.Number.FloatText
import Scenarist.Text.Blank
import Scenarist.Text.Quoted
import Scenarist.Value.Basic

/-!
# Converters

A converter turns captured text into a value or says why it cannot.
-/

namespace Scenarist

open Number Text

/-- Turns text into a value, or gives the cause of the failure. -/
abbrev Converter := String → Except String Value

/-- The built-in conversions. -/
inductive Conversion
  | int (t : IntType)
  | float (f : BinaryFormat)
  | bool
  | text
  deriving DecidableEq, Repr

namespace Conversion

/-- The conversion that a hint asks for. -/
def ofHint? : String → Option Conversion
  | "u8" => some (int .u8)
  | "u16" => some (int .u16)
  | "u32" => some (int .u32)
  | "u64" => some (int .u64)
  | "u128" => some (int .u128)
  | "usize" => some (int .usize)
  | "i8" => some (int .i8)
  | "i16" => some (int .i16)
  | "i32" => some (int .i32)
  | "i64" | "d" => some (int .i64)
  | "i128" => some (int .i128)
  | "isize" => some (int .isize)
  | "f32" => some (float .single)
  | "f64" | "f" => some (float .double)
  | "bool" => some bool
  | "w" | "S" | "String" => some text
  | _ => none

/-- Reads `true` or `false` in any case. -/
def readBool (s : List Char) : Option Bool :=
  match String.ofList (s.map Char.toLower) with
  | "true" => some true
  | "false" => some false
  | _ => none

/-- Converts a text. All but texts may stand between blanks. -/
def convert (c : Conversion) (raw : String) : Except String Value :=
  let s := trim raw.toList
  match c with
  | int t => ((t.read s).map (.int t)).mapError IntFault.message
  | float f => ((f.read s).map (.float f)).mapError FloatFault.message
  | bool =>
    match readBool s with
    | some b => .ok (.bool b)
    | none => .error (quoted (String.ofList s) ++ " is not a boolean")
  | text => .ok (.text raw)

end Conversion

namespace Converter

/-- The converter that a hint asks for. -/
def ofHint? (hint : String) : Option Converter := (Conversion.ofHint? hint).map Conversion.convert

/-- Gives the text with something appended. -/
def suffixed (suffix : String) : Converter := fun raw => .ok (.text (raw ++ suffix))

/-- Refuses every text for one cause. -/
def rejecting (cause : String) : Converter := fun _ => .error cause

end Converter

end Scenarist
