import Scenarist.Json.Draft
import Scenarist.Json.Printer

/-!
# Reading records

A record is an object or an array of its fields in order. `Source` holds what is written of a record
and a `Slot` what became of one field. `Source.check` settles which of several faults counts: the
first in the order written, then a fault behind the fields; only then are missing fields looked for.
-/

namespace Scenarist

/-- Why a value does not load. -/
inductive LoadFault
  | text (fault : JsonFault)
  | wrongType (found expected : String)
  | wrongValue (found expected : String)
  /-- Neither the name of a variant nor an object with one. -/
  | notAVariant (found : String)
  | notASingleKey
  | unknownVariant (name : String) (known : List String)
  | missingField (name : String)
  | duplicateField (name : String)
  | tooFewItems (count : Nat) (expected : String)
  | tooManyItems (count : Nat)
  deriving DecidableEq, Repr

namespace LoadFault

def ticked (s : String) : String := "`" ++ s ++ "`"

/-- The variants that a name may be, as they are listed in messages. -/
def choices : List String → String
  | [a] => ticked a
  | [a, b] => ticked a ++ " or " ++ ticked b
  | known => "one of " ++ ", ".intercalate (known.map ticked)

def message : LoadFault → String
  | text .misplaced => "misplaced character"
  | text .ended => "unexpected end"
  | wrongType found expected => "invalid type: " ++ found ++ ", expected " ++ expected
  | wrongValue found expected => "invalid value: " ++ found ++ ", expected " ++ expected
  | notAVariant found => "invalid type: " ++ found ++ ", expected string or map"
  | notASingleKey => "invalid value: map, expected map with a single key"
  | unknownVariant name known => "unknown variant " ++ ticked name ++ ", expected " ++ choices known
  | missingField name => "missing field " ++ ticked name
  | duplicateField name => "duplicate field " ++ ticked name
  | tooFewItems count expected => s!"invalid length {count}, expected {expected}"
  | tooManyItems count => s!"invalid length {count}, expected fewer elements in array"

/-- The kinds of faults of a text that is to hold a record. -/
inductive Category
  | form | data | end_
  deriving DecidableEq, Repr

def Category.name : Category → String
  | form => "Syntax"
  | data => "Data"
  | end_ => "Eof"

/-- Whether the text is not JSON, ends too early, or holds something else than expected. -/
def category : LoadFault → Category
  | text .ended => .end_
  | text .misplaced | notAVariant _ | notASingleKey | tooManyItems _ => .form
  | _ => .data

end LoadFault

/-- Loads a value. -/
abbrev Loader (α : Type) := Draft → Except LoadFault α

namespace Draft

/-- What a draft is, as it is called in messages. -/
def kind : Draft → String
  | .null => "null"
  | .bool b => "boolean " ++ LoadFault.ticked (if b then "true" else "false")
  | .int n => "integer " ++ LoadFault.ticked (toString n)
  | .float bits => "floating point " ++ LoadFault.ticked (String.ofList (Json.renderFloat bits))
  | .str s => "string " ++ Text.quoted s
  | .arr .. => "sequence"
  | .obj .. => "map"
  | .broken _ => "nothing"

/-- The fault of a draft that is not what was expected. -/
def unexpected {α : Type} (d : Draft) (expected : String) : Except LoadFault α :=
  match d with
  | .broken fault => .error (.text fault)
  | d => .error (.wrongType d.kind expected)

end Draft

namespace Load

variable {α : Type}

def text : Loader String
  | .str s => .ok s
  | d => d.unexpected "a string"

/-- A natural number up to the greatest one of a type. -/
def natural (typeName : String) (greatest : Nat) : Loader Nat
  | .int n =>
    if 0 ≤ n ∧ n ≤ greatest then .ok n.toNat
    else .error (.wrongValue (Draft.int n).kind typeName)
  | d => d.unexpected typeName

def list (item : Loader α) : Loader (List α)
  | .arr items close => do
    let found ← items.mapM item
    match close with
    | some fault => .error (.text fault)
    | none => .ok found
  | d => d.unexpected "a sequence"

/-- Something or `null`. -/
def optional (item : Loader α) : Loader (Option α)
  | .null => .ok none
  | d => some <$> item d

def pairName : String := "a tuple of size 2"

/-- A pair, as an array of two. -/
def pair {β : Type} (first : Loader α) (second : Loader β) : Loader (α × β)
  | .arr items close => do
    let tail : Except LoadFault Unit := match close with
      | some fault => .error (.text fault)
      | none => .ok ()
    match items with
    | [] => do
      tail
      .error (.tooFewItems 0 pairName)
    | [a] => do
      let _ ← first a
      tail
      .error (.tooFewItems 1 pairName)
    | a :: b :: others => do
      let a ← first a
      let b ← second b
      if !others.isEmpty then .error (.tooManyItems items.length)
      tail
      .ok (a, b)
  | d => d.unexpected pairName

/-- The name of a variant and its content, if any. -/
def variant : Loader (String × Option Draft)
  | .str s => .ok (s, none)
  | .obj [(name, content)] none => .ok (name, some content)
  | .obj [(_, .broken fault)] _ => .error (.text fault)
  | .obj _ (some fault) => .error (.text fault)
  | .obj _ _ => .error .notASingleKey
  | .broken fault => .error (.text fault)
  | d => .error (.notAVariant d.kind)

/-- A variant without content. -/
def plainVariant (known : List (String × α)) : Loader α := fun d => do
  let (name, content) ← variant d
  match known.find? fun k => k.1 = name with
  | none => .error (.unknownVariant name (known.map (·.1)))
  | some (_, a) =>
    match content with
    | none | some .null => .ok a
    | some d => d.unexpected "unit"

/-- A variant with content. -/
def taggedVariant (known : List (String × Loader α)) : Loader α := fun d => do
  let (name, content) ← variant d
  match known.find? fun k => k.1 = name with
  | none => .error (.unknownVariant name (known.map (·.1)))
  | some (_, load) =>
    match content with
    | none => .error (.wrongType "unit variant" "newtype variant")
    | some d => load d

/-- What is written of a record. -/
structure Source where
  entries : List (String × Draft)
  /-- The fault behind the entries. -/
  tail : Option LoadFault
  /-- The fault of a field that is not there. -/
  missing : String → LoadFault

/-- The record of a name and fields that a draft may be. -/
def Source.ofDraft (name : String) (fields : List String) : Loader Source
  | .obj entries close => .ok ⟨entries, close.map .text, .missingField⟩
  | .arr items close =>
    .ok {
      entries := fields.zip items
      tail := if fields.length < items.length then some (.tooManyItems items.length)
        else close.map .text
      missing := fun field =>
        .tooFewItems (fields.idxOf field) s!"struct {name} with {fields.length} elements" }
  | d => d.unexpected ("struct " ++ name)

/-- A field of a record and what was loaded for it, if it is there. -/
structure Slot (α : Type) where
  name : String
  loaded : Option (Except LoadFault α)

namespace Slot

/-- The name of a field and its fault, if it has one. -/
def report (s : Slot α) : String × Option LoadFault :=
  match s.loaded with
  | some (.error fault) => (s.name, some fault)
  | _ => (s.name, none)

/-- The value of a field that may be left out. -/
def orElse (s : Slot α) (default : α) : Except LoadFault α :=
  match s.loaded with
  | some loaded => loaded
  | none => .ok default

end Slot

namespace Source

/-- Loads a field. -/
def slot (s : Source) (name : String) (load : Loader α) : Slot α :=
  ⟨name, (s.entries.find? fun e => e.1 = name).map fun e => load e.2⟩

/-- The first fault among entries in the order written. -/
def checkEntries (reports : List (String × Option LoadFault)) :
    List String → List (String × Draft) → Except LoadFault Unit
  | _, [] => .ok ()
  | seen, (name, d) :: rest =>
    match reports.find? fun r => r.1 = name with
    | some (_, fault) =>
      if seen.contains name then .error (.duplicateField name)
      else match fault with
        | some fault => .error fault
        | none => checkEntries reports (name :: seen) rest
    | none =>
      match d.fault? with
      | some fault => .error (.text fault)
      | none => checkEntries reports seen rest

/-- Refuses a record with a fault in what is written of it. -/
def check (s : Source) (reports : List (String × Option LoadFault)) : Except LoadFault Unit := do
  checkEntries reports [] s.entries
  match s.tail with
  | some fault => .error fault
  | none => .ok ()

/-- The value of a field that must be there. -/
def require (s : Source) (slot : Slot α) : Except LoadFault α :=
  match slot.loaded with
  | some loaded => loaded
  | none => .error (s.missing slot.name)

end Source

end Load

end Scenarist
