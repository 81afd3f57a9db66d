import Scenarist.Number.Binary
import Scenarist.Number.Integer

/-!
# Values of step arguments

An argument is a number of some width, a truth value, a text, a table in one of two views, or a
counter that steps share.
-/

namespace Scenarist

open Number

/-- The types of argument values. -/
inductive ValueType
  | int (t : IntType)
  | float (f : BinaryFormat)
  | bool
  | text
  | rows
  | columns
  | counter
  deriving DecidableEq, Repr

namespace ValueType

def textName : String := "alloc::string::String"

def listName (item : String) : String := "alloc::vec::Vec<" ++ item ++ ">"

/-- The name of a type in messages. -/
def name : ValueType → String
  | int t => t.name
  | float f => f.name
  | bool => "bool"
  | text => textName
  | rows => listName (listName textName)
  | columns =>
    "alloc::collections::btree::map::BTreeMap<" ++ textName ++ ", " ++ listName textName ++ ">"
  | counter => "counter"

end ValueType

/-- An argument value. -/
inductive Value
  | int (t : IntType) (n : Int)
  /-- A floating-point number as its bit pattern. -/
  | float (f : BinaryFormat) (bits : Nat)
  | bool (b : Bool)
  | text (s : String)
  /-- The cells of a table, row by row. -/
  | rows (cells : List (List String))
  /-- The cells of a table below each header, in the order of the headers' names. -/
  | columns (entries : List (String × List String))
  /-- One of the counters of a run, by its number. -/
  | counter (id : Nat)
  deriving DecidableEq, Repr

/-- The type of a value. -/
def Value.type : Value → ValueType
  | int t _ => .int t
  | float f _ => .float f
  | bool _ => .bool
  | text _ => .text
  | rows _ => .rows
  | columns _ => .columns
  | counter _ => .counter

end Scenarist
