/-!
# Hints

The hint of a field says what its text looks like. `Hint.kind` sorts hints by the text they admit;
`FieldKind.fragment` is that text as a written expression.
-/

namespace Scenarist

/-- What the text of a field looks like. -/
inductive FieldKind
  | unsigned
  | signed
  | float
  | bool
  | word
  | nonBlank
  /-- Any text of at least one character in one line, as short as possible. -/
  | any
  deriving DecidableEq, Repr

/-- The kind of text that a hint admits. -/
def Hint.kind : Option String → FieldKind
  | some "u8" | some "u16" | some "u32" | some "u64" | some "u128" | some "usize" => .unsigned
  | some "i8" | some "i16" | some "i32" | some "i64" | some "i128" | some "isize" | some "d" =>
    .signed
  | some "f32" | some "f64" | some "f" => .float
  | some "bool" => .bool
  | some "w" => .word
  | some "S" => .nonBlank
  | _ => .any

namespace FieldKind

/-- The expression of a kind as it is written. -/
def fragment : FieldKind → String
  | unsigned => "\\d+"
  | signed => "[+-]?\\d+"
  | float => "(?i:(?:[+-]?(?:\\d+\\.\\d*|\\.\\d+|\\d+)(?:[eE][+-]?\\d+)?|nan|inf|infinity))"
  | bool => "(?i:true|false)"
  | word => "\\w+"
  | nonBlank => "\\S+"
  | any => ".+?"

end FieldKind

end Scenarist
