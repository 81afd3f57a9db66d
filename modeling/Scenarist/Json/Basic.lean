import Scenarist.Entries

/-!
# JSON values

Numbers are integers or bit patterns of double precision. The entries of an object built by
`Json.object` are in ascending order of their keys, one entry a key.
-/

namespace Scenarist

/-- A JSON value. -/
inductive Json
  | null
  | bool (b : Bool)
  | int (n : Int)
  | float (bits : Nat)
  | str (s : String)
  | arr (items : List Json)
  | obj (entries : List (String × Json))
  deriving Repr

instance : Inhabited Json := ⟨.null⟩

namespace Json

/-- The object with the given entries; of several entries with one key the last counts. -/
def object (entries : List (String × Json)) : Json :=
  .obj (Entries.ofList entries)

/-- The value under a key. -/
def get? (j : Json) (key : String) : Option Json :=
  match j with
  | .obj entries => Entries.find? key entries
  | _ => none

def text? : Json → Option String
  | .str s => some s
  | _ => none

def bool? : Json → Option Bool
  | .bool b => some b
  | _ => none

def nat? : Json → Option Nat
  | .int (.ofNat n) => some n
  | _ => none

/-- The items of an array; nothing for other values. -/
def items : Json → List Json
  | .arr items => items
  | _ => []

/-- The entries of an object; nothing for other values. -/
def entries : Json → List (String × Json)
  | .obj entries => entries
  | _ => []

end Json

end Scenarist
