import Scenarist.Entries
import Scenarist.Text.Quoted
import Scenarist.Value.Basic

/-!
# Step arguments

The named values that a handler is called with, one value a name, in the order of the names.
-/

namespace Scenarist

/-- Named argument values. -/
structure StepArguments where
  entries : List (String × Value)
  deriving DecidableEq, Repr

/-- Why a handler does not get an argument. -/
inductive ArgumentFault
  | missing (name : String)
  | mistyped (name : String) (expected actual : ValueType)
  deriving DecidableEq, Repr

def ArgumentFault.message : ArgumentFault → String
  | missing name => "missing step argument `" ++ name ++ "`"
  | mistyped name expected actual =>
    "step argument `" ++ name ++ "` is a " ++ actual.name ++ ", not a " ++ expected.name

namespace StepArguments

def empty : StepArguments := ⟨[]⟩

/-- The arguments of a list; of several values of one name the last counts. -/
def ofList (values : List (String × Value)) : StepArguments := ⟨Entries.ofList values⟩

/-- Sets an argument, in the place of an earlier value of that name. -/
def insert (name : String) (value : Value) (a : StepArguments) : StepArguments :=
  ⟨Entries.enter name value a.entries⟩

def value? (a : StepArguments) (name : String) : Option Value := Entries.find? name a.entries

def contains (a : StepArguments) (name : String) : Bool := (a.value? name).isSome

/-- The names in order. -/
def names (a : StepArguments) : List String := Entries.names a.entries

/-- The argument of a name, as a value of a type. -/
def get (a : StepArguments) (t : ValueType) (name : String) : Except ArgumentFault Value :=
  match a.value? name with
  | none => .error (.missing name)
  | some v => if v.type = t then .ok v else .error (.mistyped name t v.type)

/-- The argument of a name, as a text. -/
def text (a : StepArguments) (name : String) : Except ArgumentFault String :=
  match a.value? name with
  | none => .error (.missing name)
  | some (.text s) => .ok s
  | some v => .error (.mistyped name .text v.type)

/-- The argument of a name, as the rows of a table. -/
def rows (a : StepArguments) (name : String) : Except ArgumentFault (List (List String)) :=
  match a.value? name with
  | none => .error (.missing name)
  | some (.rows cells) => .ok cells
  | some v => .error (.mistyped name .rows v.type)

/-- The argument of a name, as a whole number of a type. -/
def int (a : StepArguments) (t : Number.IntType) (name : String) : Except ArgumentFault Int :=
  match a.value? name with
  | none => .error (.missing name)
  | some (.int t' n) => if t' = t then .ok n else .error (.mistyped name (.int t) (.int t'))
  | some v => .error (.mistyped name (.int t) v.type)

/-- The argument of a name, as the number of a counter. -/
def counter (a : StepArguments) (name : String) : Except ArgumentFault Nat :=
  match a.value? name with
  | none => .error (.missing name)
  | some (.counter id) => .ok id
  | some v => .error (.mistyped name .counter v.type)

/-- The names with the types of their values. -/
def describe (a : StepArguments) : String :=
  let entry := fun (e : String × Value) =>
    Text.quoted e.1 ++ ": ArgValue(" ++ Text.quoted e.2.type.name ++ ")"
  "StepArguments \x7b values: \x7b" ++ String.intercalate ", " (a.entries.map entry) ++
    "\x7d \x7d"

end StepArguments

end Scenarist
