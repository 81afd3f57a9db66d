import Scenarist.Run.Scenario

/-!
# Scripted handlers

A script is a handler written as a list of actions. Scripts work on a world of counters, and the
world keeps notes of calls, of the values that scripts fetch and of the events of a run.
-/

namespace Scenarist

open Number

/-- The type that a name stands for; texts for all other names. -/
def ValueType.ofName (name : String) : ValueType :=
  match Conversion.ofHint? name with
  | some (.int t) => if t.name = name then .int t else .text
  | some (.float f) => if f.name = name then .float f else .text
  | some .bool => .bool
  | _ =>
    match name with
    | "rows" => .rows
    | "columns" => .columns
    | _ => .text

/-- The payload that a text stands for under the name of a type. -/
def Payload.ofText (type raw : String) : Payload :=
  match type with
  | "str" => .text "static text"
  | "unit" | "char" => .other
  | _ =>
    match ValueType.ofName type, Conversion.ofHint? type with
    | .text, _ | _, none => .text raw
    | _, some c =>
      match c.convert raw with
      | .ok v => .value v
      | .error _ => .text raw

namespace Script

/-- What the world remembers. -/
inductive Note
  | event (e : Event)
  | call (arguments : StepArguments)
  | got (value : Value)
  deriving DecidableEq, Repr

/-- Counters by number, and notes, the earliest first. -/
structure World where
  counters : Nat → Int
  notes : List Note

namespace World

/-- All counters at zero and no notes. -/
def start : World := ⟨fun _ => 0, []⟩

def note (n : Note) (w : World) : World := { w with notes := w.notes ++ [n] }

def setCounter (id : Nat) (value : Int) (w : World) : World :=
  { w with counters := fun i => if i = id then value else w.counters i }

/-- The same counters without notes. -/
def forget (w : World) : World := { w with notes := [] }

end World

/-- Hooks that note every event. -/
def journal : Hooks World := fun e w => w.note (.event e)

/-- One action of a script. -/
inductive Action
  | ok
  | fail (message : String)
  | refute (message : String)
  | breakOff (payload : Payload)
  /-- Fetches an argument of a type. -/
  | get (name : String) (type : ValueType)
  /-- Fetches a text and reads a natural number from it. -/
  | parse (name : String)
  /-- Adds an argument to the counter. -/
  | add (name : String)
  /-- Demands that an argument equals the counter. -/
  | expect (name : String)
  deriving DecidableEq, Repr

/-- The name of the argument that holds the counter. -/
def counterName : String := "counter"

/-- A number brought into the range of 64 bits. -/
def saturate (n : Int) : Int := max IntType.i64.least (min IntType.i64.greatest n)

namespace Action

/-- The effect of an action whose arguments are fetched. -/
def withArgument {α : Type} (w : World) (r : Except ArgumentFault α) (f : α → Reply × World) :
    Reply × World :=
  match r with
  | .ok a => f a
  | .error fault => (.failed (.argument fault), w)

/-- Carries out an action. -/
def perform (action : Action) (a : StepArguments) (w : World) : Reply × World :=
  match action with
  | ok => (.done, w)
  | fail message => (.failed (.other message), w)
  | refute message => (.failed (.assertion message), w)
  | breakOff payload => (.brokeOff payload, w)
  | get name type => withArgument w (a.get type name) fun v => (.done, w.note (.got v))
  | parse name => withArgument w (a.text name) fun s =>
      match IntType.usize.read s.toList with
      | .ok n => (.done, w.note (.got (.int .usize n)))
      | .error fault => (.failed (.other fault.message), w)
  | add name => withArgument w (a.int .i64 name) fun n =>
      withArgument w (a.counter counterName) fun id =>
        (.done, w.setCounter id (saturate (w.counters id + n)))
  | expect name => withArgument w (a.int .i64 name) fun n =>
      withArgument w (a.counter counterName) fun id =>
        if w.counters id = n then (.done, w)
        else
          let message := "expected " ++ toString n ++ ", found " ++ toString (w.counters id)
          (.failed (.assertion message), w)

end Action

/-- Carries out actions up to the first that is not done. -/
def performAll : List Action → StepArguments → World → Reply × World
  | [], _, w => (.done, w)
  | action :: rest, a, w =>
    match action.perform a w with
    | (.done, w) => performAll rest a w
    | stopped => stopped

/-- The handler of a script: it notes the call and carries out the actions. -/
def handler (actions : List Action) : Handler World := fun a w =>
  performAll actions a (w.note (.call a))

/-- The handler of a script that does not note the call. -/
def silentHandler (actions : List Action) : Handler World := performAll actions

end Script

end Scenarist
