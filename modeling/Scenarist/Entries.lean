/-!
# Entries in the order of their names

A list of named values in ascending order of names, one value a name.
-/

namespace Scenarist.Entries

variable {α : Type}

/-- Enters a value under a name, in the place of an earlier value of that name. -/
def enter (name : String) (value : α) : List (String × α) → List (String × α)
  | [] => [(name, value)]
  | (n, v) :: rest =>
    if name < n then (name, value) :: (n, v) :: rest
    else if name = n then (name, value) :: rest
    else (n, v) :: enter name value rest

/-- The entries of a list in order; of several values of one name the last counts. -/
def ofList (entries : List (String × α)) : List (String × α) :=
  entries.foldl (fun acc e => enter e.1 e.2 acc) []

/-- The value under a name. -/
def find? (name : String) (entries : List (String × α)) : Option α :=
  (entries.find? fun e => e.1 = name).map (·.2)

def names (entries : List (String × α)) : List String := entries.map (·.1)

end Scenarist.Entries
