import Scenarist.Text.Utf8

/-!
# Source encodings
-/

namespace Scenarist.Text

/-- How the bytes of a feature file stand for text. -/
inductive Encoding
  /-- Strict UTF-8; a leading byte order mark is text. -/
  | utf8
  /-- UTF-8 whose leading byte order mark, if any, is dropped. -/
  | utf8Sig
  /-- ISO 8859-1: every byte is the code point of the same value. -/
  | latin1
  deriving DecidableEq, Repr

namespace Encoding

/-- The name used in messages and answers. -/
def name : Encoding → String
  | utf8 => "utf-8"
  | utf8Sig => "utf-8-sig"
  | latin1 => "latin-1"

def byteOrderMark : List Nat := [0xEF, 0xBB, 0xBF]

/-- The text that bytes stand for. -/
def decode (e : Encoding) (bytes : List Nat) : Except Utf8Fault (List Char) :=
  match e with
  | utf8 => decodeUtf8 bytes
  | utf8Sig =>
    decodeUtf8 (if byteOrderMark.isPrefixOf bytes then bytes.drop byteOrderMark.length else bytes)
  | latin1 => .ok (bytes.map Char.ofNat)

end Encoding

end Scenarist.Text
