/-!
# Paired backslashes

In the raw form of a text every run of backslashes has even length.
-/

namespace Scenarist.Text

/-- Doubles a backslash that has no partner. -/
def pairBackslashes : List Char → List Char
  | [] => []
  | '\\' :: '\\' :: rest => '\\' :: '\\' :: pairBackslashes rest
  | c :: rest => if c = '\\' then '\\' :: '\\' :: pairBackslashes rest else c :: pairBackslashes rest

end Scenarist.Text
