import Scenarist.Json.Basic

/-!
# JSON as far as it goes

A `Draft` is what a text says before it stops being JSON: entries in the order written, repeated
keys included, and a fault in the place where the text breaks off. A reader of typed records walks a
draft and meets a wrong value before a fault that stands behind it, just as it would meet them in
the text. `Json.draft` views a value as a draft without faults.
-/

namespace Scenarist

/-- Why a text is not JSON. -/
inductive JsonFault
  /-- A character that cannot stand where it stands. -/
  | misplaced
  /-- The text ends inside a value. -/
  | ended
  deriving DecidableEq, Repr

/-- A value as written, up to the first fault. -/
inductive Draft
  | null
  | bool (b : Bool)
  | int (n : Int)
  | float (bits : Nat)
  | str (s : String)
  /-- Items and the fault in the place of the closing bracket. -/
  | arr (items : List Draft) (close : Option JsonFault)
  /-- Entries and the fault in the place of the closing brace. -/
  | obj (entries : List (String × Draft)) (close : Option JsonFault)
  | broken (fault : JsonFault)

instance : Inhabited Draft := ⟨.null⟩

namespace Json

mutual

/-- A value viewed as a draft. -/
def draft : Json → Draft
  | .null => .null
  | .bool b => .bool b
  | .int n => .int n
  | .float bits => .float bits
  | .str s => .str s
  | .arr items => .arr (draftItems items) none
  | .obj entries => .obj (draftEntries entries) none

def draftItems : List Json → List Draft
  | [] => []
  | j :: rest => draft j :: draftItems rest

def draftEntries : List (String × Json) → List (String × Draft)
  | [] => []
  | (k, j) :: rest => (k, draft j) :: draftEntries rest

end

end Json

namespace Draft

mutual

/-- The value of a draft, or its first fault. -/
def value : Draft → Except JsonFault Json
  | .null => .ok .null
  | .bool b => .ok (.bool b)
  | .int n => .ok (.int n)
  | .float bits => .ok (.float bits)
  | .str s => .ok (.str s)
  | .arr items close => do
    let js ← values items
    match close with
    | some fault => .error fault
    | none => .ok (.arr js)
  | .obj entries close => do
    let es ← valueEntries entries
    match close with
    | some fault => .error fault
    | none => .ok (Json.object es)
  | .broken fault => .error fault

def values : List Draft → Except JsonFault (List Json)
  | [] => .ok []
  | d :: rest => do
    let j ← value d
    let js ← values rest
    .ok (j :: js)

def valueEntries : List (String × Draft) → Except JsonFault (List (String × Json))
  | [] => .ok []
  | (k, d) :: rest => do
    let j ← value d
    let js ← valueEntries rest
    .ok ((k, j) :: js)

end

/-- The first fault of a draft. -/
def fault? (d : Draft) : Option JsonFault :=
  match d.value with
  | .error fault => some fault
  | .ok _ => none

end Draft

end Scenarist
