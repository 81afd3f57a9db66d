import Scenarist.Json.Draft
import Scenarist.Number.FloatText

/-!
# Reading JSON

`Draft.read` reads one value and says whether anything but blanks follows it; `Json.read` accepts
exactly one value. Arrays and objects nest at most `deepest` levels. Integers beyond 64 bits are
numbers of double precision; such a number is computed from the first digits that fit into 64 bits
and a rounded power of ten, so its last bit may differ from the nearest one.
-/

namespace Scenarist

namespace Json

open Scenarist.Number

/-- How many arrays and objects may be open at once. -/
def deepest : Nat := 127

def isJsonBlank (c : Char) : Bool := c == ' ' || c == '\n' || c == '\t' || c == '\r'

def skipBlanks (s : List Char) : List Char := s.dropWhile isJsonBlank

/-- Four hexadecimal digits. -/
def readUnit : List Char → Except JsonFault (Nat × List Char)
  | a :: b :: c :: d :: rest =>
    match hexDigitValue? a, hexDigitValue? b, hexDigitValue? c, hexDigitValue? d with
    | some a, some b, some c, some d => .ok (((a * 16 + b) * 16 + c) * 16 + d, rest)
    | _, _, _, _ => .error .misplaced
  | _ => .error .ended

/-- The character of a `\u` escape, from its first digit on: one unit, or a pair of surrogates. -/
def readUnicode (s : List Char) : Except JsonFault (Char × List Char) :=
  match readUnit s with
  | .error fault => .error fault
  | .ok (high, rest) =>
    if high < 0xD800 ∨ 0xDFFF < high then .ok (Char.ofNat high, rest)
    else if 0xDC00 ≤ high then .error .misplaced
    else match rest with
      | [] | ['\\'] => .error .ended
      | '\\' :: 'u' :: rest =>
        match readUnit rest with
        | .error fault => .error fault
        | .ok (low, rest) =>
          if 0xDC00 ≤ low ∧ low ≤ 0xDFFF then
            .ok (Char.ofNat (0x10000 + (high - 0xD800) * 0x400 + (low - 0xDC00)), rest)
          else .error .misplaced
      | _ => .error .misplaced

/-- The character of an escape that is a single letter. -/
def shortEscape? : Char → Option Char
  | '"' => some '"'
  | '\\' => some '\\'
  | '/' => some '/'
  | 'b' => some '\x08'
  | 'f' => some '\x0c'
  | 'n' => some '\n'
  | 'r' => some '\r'
  | 't' => some '\t'
  | _ => none

/-- Reads a string from behind its opening quote; `n` bounds the number of characters. -/
def readChars : Nat → List Char → Except JsonFault (List Char × List Char)
  | 0, _ => .error .ended
  | n + 1, s =>
    match s with
    | [] | ['\\'] => .error .ended
    | '"' :: rest => .ok ([], rest)
    | '\\' :: 'u' :: rest =>
      match readUnicode rest with
      | .error fault => .error fault
      | .ok (c, rest) => (fun (cs, r) => (c :: cs, r)) <$> readChars n rest
    | '\\' :: e :: rest =>
      match shortEscape? e with
      | none => .error .misplaced
      | some c => (fun (cs, r) => (c :: cs, r)) <$> readChars n rest
    | c :: rest =>
      if c.toNat < 0x20 then .error .misplaced
      else (fun (cs, r) => (c :: cs, r)) <$> readChars n rest

/-- The greatest number that the digits of a float may reach. -/
def digitLimit : Nat := Nat.pow 2 64 - 1

/-- Adds digits to a number while it fits; gives the number, how many digits were added and how many
did not fit. -/
def gather (n : Nat) : List Char → Nat × Nat × Nat
  | [] => (n, 0, 0)
  | c :: rest =>
    let next := 10 * n + (digitValue? c).getD 0
    if digitLimit < next then (n, 0, rest.length + 1)
    else
      let (m, added, left) := gather next rest
      (m, added + 1, left)

/-- The double nearest to the product of two doubles. -/
def timesDouble (a b : Nat) : Nat :=
  let f := BinaryFormat.double
  let (m, e) := f.magnitude a
  let (n, k) := f.magnitude b
  f.round (m * n * Nat.pow 2 (e + k)) (Nat.pow 2 (2 * f.tiny))

/-- The double nearest to the quotient of two doubles. -/
def overDouble (a b : Nat) : Nat :=
  let f := BinaryFormat.double
  let (m, e) := f.magnitude a
  let (n, k) := f.magnitude b
  f.round (m * Nat.pow 2 e) (n * Nat.pow 2 k)

def tenToDouble (e : Nat) : Nat := BinaryFormat.double.round (Nat.pow 10 e) 1

/-- The double written by a significand and a power of ten; nothing when it is too large. -/
def double? (significand : Nat) (power : Int) : Option Nat :=
  let f := BinaryFormat.double
  let s := f.round significand 1
  if 0 ≤ power then
    if s = 0 then some 0
    else if 308 < power then none
    else
      let bits := timesDouble s (tenToDouble power.toNat)
      if f.isInfinite bits then none else some bits
  else if -308 ≤ power then some (overDouble s (tenToDouble (-power).toNat))
  else if -616 ≤ power then
    some (overDouble (overDouble s (tenToDouble 308)) (tenToDouble (-power - 308).toNat))
  else some 0

/-- The largest power of ten that is counted. -/
def powerLimit : Nat := Nat.pow 2 31 - 1

/-- Reads the rest of a number whose significand and power of ten so far are given: an exponent or
nothing. -/
def readExponent (negative : Bool) (significand : Nat) (power : Int) (s : List Char) :
    Draft × Option (List Char) :=
  let signed := fun (bits : Nat) => if negative then bits + BinaryFormat.double.signBit else bits
  let finish := fun (p : Int) (rest : List Char) =>
    match double? significand p with
    | some bits => (Draft.float (signed bits), some rest)
    | none => (.broken .misplaced, none)
  match s with
  | e :: rest =>
    if e = 'e' ∨ e = 'E' then
      let (down, digits) := match rest with
        | '+' :: r => (false, r)
        | '-' :: r => (true, r)
        | r => (false, r)
      match digits with
      | [] => (.broken .ended, none)
      | c :: _ =>
        if !isAsciiDigit c then (.broken .misplaced, none)
        else
          let n := accumulate 0 (digits.takeWhile isAsciiDigit)
          let after := digits.dropWhile isAsciiDigit
          if powerLimit < n then
            if significand ≠ 0 && !down then (.broken .misplaced, none)
            else (.float (signed 0), some after)
          else finish (if down then power - n else power + n) after
    else finish power s
  | [] => finish power s

/-- Reads a number from behind its sign. -/
def readNumber (negative : Bool) (s : List Char) : Draft × Option (List Char) :=
  match s with
  | [] => (.broken .ended, none)
  | c :: next =>
    let digits := s.takeWhile isAsciiDigit
    let after := s.dropWhile isAsciiDigit
    if !isAsciiDigit c then (.broken .misplaced, none)
    else if c = '0' ∧ (next.head?.any isAsciiDigit) then (.broken .misplaced, none)
    else
      let (significand, _, dropped) := gather 0 digits
      match after with
      | '.' :: fraction =>
        let places := fraction.takeWhile isAsciiDigit
        if places.isEmpty then
          (.broken (if fraction.isEmpty then .ended else .misplaced), none)
        else
          let (significand, added, _) := gather significand places
          readExponent negative significand (dropped - added) (fraction.dropWhile isAsciiDigit)
      | _ =>
        if after.head?.any (fun e => e = 'e' ∨ e = 'E') || 0 < dropped then
          readExponent negative significand dropped after
        else if !negative then (.int significand, some after)
        else if significand = 0 ∨ Nat.pow 2 63 < significand then
          readExponent negative significand 0 after
        else (.int (-significand), some after)

/-- Reads the rest of a word such as `true` from behind its first letter. -/
def readWord (value : Draft) : List Char → List Char → Draft × Option (List Char)
  | [], s => (value, some s)
  | _ :: _, [] => (.broken .ended, none)
  | w :: word, c :: s => if w = c then readWord value word s else (.broken .misplaced, none)

/-- A reader of one value: the draft and, unless it is broken, what follows. -/
abbrev ValueReader := List Char → Draft × Option (List Char)

/-- Reads items up to the closing bracket, from the first character of an item on. -/
def readItems (item : ValueReader) :
    Nat → List Char → List Draft × Option JsonFault × Option (List Char)
  | 0, _ => ([], some .ended, none)
  | n + 1, s =>
    match item s with
    | (d, none) => ([d], none, none)
    | (d, some rest) =>
      match skipBlanks rest with
      | [] => ([d], some .ended, none)
      | ']' :: rest => ([d], none, some rest)
      | ',' :: rest =>
        let rest := skipBlanks rest
        if rest.head? = some ']' then ([d, .broken .misplaced], none, none)
        else
          let (ds, close, rest) := readItems item n rest
          (d :: ds, close, rest)
      | _ => ([d], some .misplaced, none)

/-- Reads entries up to the closing brace, from the first character of a key on. -/
def readEntries (item : ValueReader) :
    Nat → List Char → List (String × Draft) × Option JsonFault × Option (List Char)
  | 0, _ => ([], some .ended, none)
  | n + 1, s =>
    match s with
    | [] => ([], some .ended, none)
    | '"' :: rest =>
      match readChars rest.length rest with
      | .error fault => ([], some fault, none)
      | .ok (key, rest) =>
        let key := String.ofList key
        match skipBlanks rest with
        | [] => ([(key, .broken .ended)], none, none)
        | ':' :: rest =>
          match item rest with
          | (d, none) => ([(key, d)], none, none)
          | (d, some rest) =>
            match skipBlanks rest with
            | [] => ([(key, d)], some .ended, none)
            | '}' :: rest => ([(key, d)], none, some rest)
            | ',' :: rest =>
              let (es, close, rest) := readEntries item n (skipBlanks rest)
              ((key, d) :: es, close, rest)
            | _ => ([(key, d)], some .misplaced, none)
        | _ => ([(key, .broken .misplaced)], none, none)
    | _ => ([], some .misplaced, none)

/-- Reads one value with at most `depth` open arrays and objects. -/
def readValue : Nat → ValueReader
  | depth, s =>
    match skipBlanks s with
    | [] => (.broken .ended, none)
    | '"' :: rest =>
      match readChars rest.length rest with
      | .error fault => (.broken fault, none)
      | .ok (text, rest) => (.str (String.ofList text), some rest)
    | '[' :: rest =>
      match depth with
      | 0 => (.broken .misplaced, none)
      | depth + 1 =>
        match skipBlanks rest with
        | [] => (.arr [] (some .ended), none)
        | ']' :: rest => (.arr [] none, some rest)
        | rest =>
          let (items, close, after) := readItems (readValue depth) rest.length rest
          (.arr items close, after)
    | '{' :: rest =>
      match depth with
      | 0 => (.broken .misplaced, none)
      | depth + 1 =>
        match skipBlanks rest with
        | [] => (.obj [] (some .ended), none)
        | '}' :: rest => (.obj [] none, some rest)
        | rest =>
          let (entries, close, after) := readEntries (readValue depth) rest.length rest
          (.obj entries close, after)
    | 'n' :: rest => readWord .null "ull".toList rest
    | 't' :: rest => readWord (.bool true) "rue".toList rest
    | 'f' :: rest => readWord (.bool false) "alse".toList rest
    | '-' :: rest => readNumber true rest
    | rest => readNumber false rest

end Json

open Json

/-- Reads one value and says whether anything but blanks follows it. -/
def Draft.read (s : List Char) : Draft × Bool :=
  match readValue deepest s with
  | (d, none) => (d, false)
  | (d, some rest) => (d, !(skipBlanks rest).isEmpty)

/-- Reads a text that holds exactly one value. -/
def Json.read (s : List Char) : Except JsonFault Json :=
  match Draft.read s with
  | (d, trailing) =>
    match d.value with
    | .error fault => .error fault
    | .ok j => if trailing then .error .misplaced else .ok j

end Scenarist
