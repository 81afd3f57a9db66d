import Scenarist.Unicode.Hidden

/-!
# Quoted text

The quoted form of a text in messages: double quotes around it, a backslash before quotes and
backslashes, short escapes for the common control characters, and the code point of every other
character that does not show by itself.
-/

namespace Scenarist.Text

/-- Lower-case hexadecimal digits, without leading zeros. -/
def hex (n : Nat) : String := String.ofList (Nat.toDigits 16 n)

/-- The quoted form of one character. -/
def quotedChar (c : Char) : String :=
  match c with
  | '\x00' => "\\0"
  | '\t' => "\\t"
  | '\n' => "\\n"
  | '\r' => "\\r"
  | '"' => "\\\""
  | '\\' => "\\\\"
  | c => if Unicode.isHidden c then "\\u\x7b" ++ hex c.toNat ++ "\x7d" else String.singleton c

/-- The quoted form of a text. -/
def quoted (s : String) : String :=
  "\"" ++ String.join (s.toList.map quotedChar) ++ "\""

end Scenarist.Text
