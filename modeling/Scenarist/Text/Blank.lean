/-!
# White space

A character is blank when it has the property White_Space. Texts are lists of characters; `trim`
and its halves remove blank characters from the ends.
-/

namespace Scenarist.Text

/-- Whether a character has the property White_Space. -/
def isBlank (c : Char) : Bool :=
  let n := c.toNat
  (9 ≤ n && n ≤ 13) || n == 0x20 || n == 0x85 || n == 0xA0 || n == 0x1680 ||
    (0x2000 ≤ n && n ≤ 0x200A) || n == 0x2028 || n == 0x2029 || n == 0x202F || n == 0x205F ||
    n == 0x3000

/-- Whether a character is one of the five blanks of ASCII that end a placeholder name. -/
def isAsciiBlank (c : Char) : Bool :=
  c == ' ' || c == '\t' || c == '\n' || c == '\r' || c == '\x0c'

/-- Space or tab. -/
def isSpaceOrTab (c : Char) : Bool := c == ' ' || c == '\t'

/-- Whether a text holds blank characters only. -/
def allBlank (s : List Char) : Bool := s.all isBlank

/-- The leading blanks. -/
def indentation (s : List Char) : List Char := s.takeWhile isBlank

def trimStart (s : List Char) : List Char := s.dropWhile isBlank

def trimEnd (s : List Char) : List Char := (s.reverse.dropWhile isBlank).reverse

def trim (s : List Char) : List Char := trimEnd (trimStart s)

/-- The words between blanks. -/
def words : List Char → List (List Char)
  | [] => []
  | c :: rest =>
    if isBlank c then words rest
    else match rest, words rest with
      | d :: _, w :: ws => if isBlank d then [c] :: w :: ws else (c :: w) :: ws
      | _, ws => [c] :: ws

theorem indentation_append_trimStart (s : List Char) : indentation s ++ trimStart s = s :=
  List.takeWhile_append_dropWhile

end Scenarist.Text
