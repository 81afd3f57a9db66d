import Scenarist.Json.Basic
import Scenarist.Number.Shortest
import Scenarist.Text.Quoted

/-!
# Writing JSON

`Json.render` writes a value without blanks. Text is escaped only where it must be.
-/

namespace Scenarist.Json

open Scenarist.Number

/-- The written form of one character inside a string. -/
def escaped (c : Char) : List Char :=
  match c with
  | '"' => ['\\', '"']
  | '\\' => ['\\', '\\']
  | '\x08' => ['\\', 'b']
  | '\x0c' => ['\\', 'f']
  | '\n' => ['\\', 'n']
  | '\r' => ['\\', 'r']
  | '\t' => ['\\', 't']
  | c =>
    if c.toNat < 0x20 then
      '\\' :: 'u' :: '0' :: '0' :: Nat.digitChar (c.toNat / 16) :: [Nat.digitChar (c.toNat % 16)]
    else [c]

/-- A text as a JSON string. -/
def renderText (s : String) : List Char :=
  '"' :: (s.toList.flatMap escaped ++ ['"'])

/-- A finite number of double precision: the shortest digits that read back, positional from one
hundred-thousandth up to sixteen digits before the point, always with a point or an exponent. -/
def renderFloat (bits : Nat) : List Char :=
  let f := BinaryFormat.double
  let sign := if f.isNegative bits then ['-'] else []
  if f.unsigned bits = 0 then sign ++ "0.0".toList
  else
    let d := f.shortest bits
    let point : Int := d.digitChars.length + d.exponent
    sign ++
      if -5 < point ∧ point ≤ 16 then
        d.positional ++ if 0 ≤ d.exponent then ['.', '0'] else []
      else d.scientific

mutual

/-- The written form of a value. -/
def renderChars : Json → List Char
  | .null => "null".toList
  | .bool true => "true".toList
  | .bool false => "false".toList
  | .int n => (toString n).toList
  | .float bits => renderFloat bits
  | .str s => renderText s
  | .arr items => '[' :: (renderItems items ++ [']'])
  | .obj entries => '{' :: (renderEntries entries ++ ['}'])

def renderItems : List Json → List Char
  | [] => []
  | [j] => renderChars j
  | j :: rest => renderChars j ++ ',' :: renderItems rest

def renderEntries : List (String × Json) → List Char
  | [] => []
  | [(k, j)] => renderText k ++ ':' :: renderChars j
  | (k, j) :: rest => renderText k ++ ':' :: (renderChars j ++ ',' :: renderEntries rest)

end

/-- The written form of a value. -/
def render (j : Json) : String := String.ofList (renderChars j)

end Scenarist.Json
