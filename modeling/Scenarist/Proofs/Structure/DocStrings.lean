import Scenarist.Proofs.Structure.Violation

/-!
# Doc strings in the order of blocks

A doc string runs from the line that opens it to the line that closes it, and is one token in the
order of blocks.

* `placed`: the tokens of lines, where each doc string has one.
* `docStringReport`: the report of a walker that goes over these tokens.
* `walk_eq_refusal_or_behind`: going over the lines gives this report until a doc string begins
  right behind another one.
* `firstViolation_eq_docStringReport_iff`: for every text, the two reports are the same unless what
  is to be reported is such a doc string.
-/

namespace Scenarist.Structure

open Walker Text Source

/-! ### One token a doc string -/

/-- A token and the line that it begins in. -/
structure Placed where
  line : Nat
  text : List Char
  token : Token

/-- Whether a line closes a doc string that began with a delimiter. -/
def closes (d line : List Char) : Bool := d.isPrefixOf (trimStart line)

/-- The tokens of the lines from number `n` on.  A doc string has one token, at the line that opens
it; the lines inside and the line that closes it have none. -/
def placed (n : Nat) : List (List Char) → List Placed
  | [] => []
  | line :: rest =>
    match delimiter? (trimStart line) with
    | none =>
      ((token? (plainKind (trimStart line)) line).map fun token => ⟨n, line, token⟩).toList ++
        placed (n + 1) rest
    | some d =>
      let inside := rest.takeWhile fun l => !closes d l
      ⟨n, line, .docString⟩ :: placed (n + 1 + inside.length + 1) (rest.drop (inside.length + 1))
termination_by ls => ls.length
decreasing_by
  · exact Nat.lt_succ_self _
  · exact Nat.lt_succ_of_le (List.drop_sublist _ _).length_le

/-- The report of a walker that goes over tokens. -/
def refusal (t : SourceText) (w : Walker) : List Placed → Option Violation
  | [] =>
    match w.accept? .eof with
    | some _ => none
    | none => some ⟨⟨t.count + 1, 1⟩, .eof, w.expected, ""⟩
  | p :: ps =>
    match w.accept? p.token with
    | some w => refusal t w ps
    | none => some ⟨t.startOf p.line, p.token, w.expected, String.ofList (trim p.text)⟩

/-- The first token of a file that cannot stand where it stands, where each doc string is one
token. -/
def docStringReport (t : SourceText) : Option Violation := refusal t .start (placed 1 t.lines)

/-- What is reported is a doc string that begins on the line right behind another one. -/
def Violation.BehindDocString (t : SourceText) (v : Violation) : Prop :=
  v.token = .docString ∧ t.kind? (v.location.line - 1) = some .docString

/-! ### Line by line -/

/-- The kind of a line where a doc string with the given delimiter may be open. -/
def lineKind (o : Option (List Char)) (line : List Char) : LineKind :=
  if o.isSome ∨ (delimiter? (trimStart line)).isSome then .docString
  else plainKind (trimStart line)

/-- The delimiter of the doc string that is open behind a line. -/
def openBehind (o : Option (List Char)) (line : List Char) : Option (List Char) :=
  match o with
  | some d => if closes d line then none else some d
  | none => delimiter? (trimStart line)

/-- The token that begins in a line. -/
def placedAt? (o : Option (List Char)) (n : Nat) (line : List Char) : Option Placed :=
  if o.isSome then none else (token? (lineKind o line) line).map fun token => ⟨n, line, token⟩

/-- The tokens of the lines from number `n` on, where a doc string may be open. -/
def placedFrom (o : Option (List Char)) (n : Nat) (ls : List (List Char)) : List Placed :=
  match o with
  | none => placed n ls
  | some d =>
    let inside := ls.takeWhile fun l => !closes d l
    placed (n + inside.length + 1) (ls.drop (inside.length + 1))

variable {t : SourceText} {w : Walker} {v : Violation} {o : Option (List Char)}
  {previous : Option LineKind} {n : Nat} {line : List Char} {ls : List (List Char)}

theorem kindsFrom_cons (o : Option (List Char)) (line : List Char) (ls : List (List Char)) :
    kindsFrom o (line :: ls) = lineKind o line :: kindsFrom (openBehind o line) ls := by
  cases o with
  | some d => rfl
  | none =>
    rw [kindsFrom, lineKind, openBehind]
    cases delimiter? (trimStart line) <;> rfl

theorem kindsFrom_append (o : Option (List Char)) (front back : List (List Char)) :
    kindsFrom o (front ++ back) =
      kindsFrom o front ++ kindsFrom (front.foldl openBehind o) back := by
  induction front generalizing o with
  | nil => cases o <;> rfl
  | cons line front ih =>
    rw [List.cons_append, kindsFrom_cons, ih, kindsFrom_cons, List.cons_append, List.foldl_cons]

theorem lineKind_of_open (h : o.isSome) : lineKind o line = .docString := if_pos (.inl h)

theorem lineKind_of_openBehind (h : (openBehind o line).isSome) : lineKind o line = .docString := by
  cases o with
  | some d => rfl
  | none => exact if_pos (.inr h)

/-- The tokens of lines, one line after another. -/
theorem placedFrom_cons (o : Option (List Char)) (n : Nat) (line : List Char)
    (ls : List (List Char)) :
    placedFrom o n (line :: ls) =
      (placedAt? o n line).toList ++ placedFrom (openBehind o line) (n + 1) ls := by
  cases o with
  | none =>
    rw [placedFrom, placed, placedAt?, lineKind, openBehind]
    cases delimiter? (trimStart line) <;> rfl
  | some d =>
    have hNone : placedAt? (some d) n line = none := rfl
    rw [hNone, Option.toList_none, List.nil_append, openBehind]
    cases hCloses : closes d line with
    | true =>
      simp only [placedFrom, hCloses, Bool.not_true, Bool.false_eq_true, not_false_eq_true,
        List.takeWhile_cons_of_neg, List.length_nil, List.drop_succ_cons, List.drop_zero, if_true,
        Nat.add_zero, Nat.zero_add]
    | false =>
      simp only [placedFrom, hCloses, Bool.not_false, List.takeWhile_cons_of_pos, List.length_cons,
        List.drop_succ_cons, Bool.false_eq_true, if_false]
      congr 1
      omega

/-! ### Two ways over a file -/

/-- Behind line `n` of a file stand the given lines; `o` is the delimiter of the doc string that is
open there and `previous` is the kind of the line. -/
structure Stands (t : SourceText) (o : Option (List Char)) (previous : Option LineKind) (n : Nat)
    (ls : List (List Char)) : Prop where
  kinds : t.kinds.drop n = kindsFrom o ls
  count : t.count = n + ls.length
  kind : t.kind? n = previous
  inside : o.isSome → previous = some .docString

theorem Stands.next (h : Stands t o previous n (line :: ls)) :
    Stands t (openBehind o line) (some (lineKind o line)) (n + 1) ls := by
  have hKinds := h.kinds
  rw [kindsFrom_cons] at hKinds
  constructor
  · rw [← List.drop_drop, hKinds, List.drop_one, List.tail_cons]
  · rw [h.count, List.length_cons]
    omega
  · show t.kinds[n]? = _
    rw [← List.head?_drop, hKinds, List.head?_cons]
  · exact fun hOpen => congrArg some (lineKind_of_openBehind hOpen)

theorem eq_docString_of_token? {kind : LineKind} (h : token? kind line = some .docString) :
    kind = .docString := by
  cases kind with
  | docString => rfl
  | other => exact absurd (Option.some.inj h) (plainToken_ne (by decide) (by decide) (by decide))
  | blank | comment | tag | row => cases h

/-- A doc string is refused behind a doc string. -/
theorem accept?_docString_twice {w' : Walker} (h : w.accept? .docString = some w') :
    w'.accept? .docString = none := by
  cases w with
  | mk b describing afterStep tagged =>
    cases tagged with
    | true => cases b <;> cases h
    | false =>
      cases afterStep with
      | false => cases b <;> cases h
      | true =>
        cases h
        rfl

/-- **Going over the lines of a file gives the report in which each doc string is one token, or that
report is about a doc string that begins right behind another one.** -/
theorem walk_eq_refusal_or_behind (h : Stands t o previous n ls)
    (hw : previous = some .docString → w.accept? .docString = none) :
    walk t w previous (n + 1) (ls.zip (kindsFrom o ls)) = refusal t w (placedFrom o (n + 1) ls) ∨
      ∃ v, refusal t w (placedFrom o (n + 1) ls) = some v ∧ v.BehindDocString t := by
  induction ls generalizing o w previous n with
  | nil =>
    have hEnd : t.count = n := h.count
    have hNone : placedFrom o (n + 1) [] = [] := by
      cases o <;> simp only [placedFrom, List.drop_nil] <;> rw [placed]
    rw [hNone, List.zip_nil_left, walk, refusal, hEnd]
    exact .inl rfl
  | cons line ls ih =>
    rw [kindsFrom_cons, List.zip_cons_cons, walk, placedFrom_cons]
    by_cases hOpen : o.isSome
    · -- Inside a doc string neither has a token.
      have hSkipped : placedAt? o (n + 1) line = none := if_pos hOpen
      rw [if_pos ⟨lineKind_of_open hOpen, h.inside hOpen⟩, hSkipped, Option.toList_none,
        List.nil_append]
      exact ih h.next fun _ => hw (h.inside hOpen)
    · have hPlaced : placedAt? o (n + 1) line =
          (token? (lineKind o line) line).map fun token => ⟨n + 1, line, token⟩ := if_neg hOpen
      by_cases hBehind : lineKind o line = .docString ∧ previous = some .docString
      · -- A doc string behind a doc string is skipped here and refused there.
        obtain ⟨hKind, hPrevious⟩ := hBehind
        refine .inr ⟨⟨t.startOf (n + 1), .docString, w.expected, String.ofList (trim line)⟩, ?_,
          rfl, h.kind.trans hPrevious⟩
        rw [hPlaced, hKind, token?, Option.map_some, Option.toList_some, List.singleton_append,
          refusal, hw hPrevious]
      · rw [if_neg hBehind, hPlaced]
        cases hToken : token? (lineKind o line) line with
        | none =>
          rw [Option.map_none, Option.toList_none, List.nil_append]
          refine ih h.next fun hKind => ?_
          rw [Option.some.inj hKind] at hToken
          cases hToken
        | some token =>
          rw [Option.map_some, Option.toList_some, List.singleton_append, refusal]
          dsimp only
          cases hAccept : w.accept? token with
          | none => exact .inl rfl
          | some m =>
            refine ih h.next fun hKind => ?_
            rw [Option.some.inj hKind] at hToken
            obtain rfl := Option.some.inj hToken
            exact accept?_docString_twice hAccept

/-- Going over the lines of a file never reports a doc string that begins right behind another
one. -/
theorem not_behindDocString_of_walk (h : Stands t o previous n ls)
    (hReport : walk t w previous (n + 1) (ls.zip (kindsFrom o ls)) = some v) :
    ¬ v.BehindDocString t := by
  induction ls generalizing o w previous n with
  | nil =>
    rw [List.zip_nil_left, walk] at hReport
    split at hReport
    · cases hReport
    · obtain rfl := Option.some.inj hReport
      rintro ⟨hToken, _⟩
      cases hToken
  | cons line ls ih =>
    rw [kindsFrom_cons, List.zip_cons_cons, walk] at hReport
    split at hReport
    · exact ih h.next hReport
    · next hFresh =>
      split at hReport
      · exact ih h.next hReport
      · next token hToken =>
        split at hReport
        · exact ih h.next hReport
        · obtain rfl := Option.some.inj hReport
          rintro ⟨rfl, hBefore⟩
          exact hFresh ⟨eq_docString_of_token? hToken, h.kind.symm.trans hBefore⟩

/-! ### Whole files -/

/-- **The report is the one in which each doc string is one token, unless that one refuses a doc
string that begins on the line right behind another one.** -/
theorem firstViolation_eq_docStringReport_iff (s : List Char) :
    firstViolation (.ofText s) = docStringReport (.ofText s) ↔
      ∀ v, docStringReport (.ofText s) = some v → ¬ v.BehindDocString (.ofText s) := by
  have hStart : Stands (.ofText s) none none 0 (linesOf s) :=
    ⟨rfl, (Nat.zero_add _).symm, rfl, fun h => by cases h⟩
  constructor
  · intro hSame v hReport
    exact not_behindDocString_of_walk hStart (hSame.trans hReport)
  · intro hNever
    rcases walk_eq_refusal_or_behind (w := start) hStart (fun h => by cases h) with
      hSame | ⟨v, hReport, hBehind⟩
    · exact hSame
    · exact absurd hBehind (hNever v hReport)

/-- A doc string that begins right behind another one, in front of a background. -/
def twoDocStrings : List Char :=
  ("Feature: a\n  Scenario: b\n    Given c\n      \"\"\"\n      x\n      \"\"\"\n" ++
    "      \"\"\"\n      y\n      \"\"\"\n  Background:\n").toList

/-- **The reports are not the same for every text**: the second of two doc strings of a step is not
reported when it begins right behind the first one; a later line is. -/
theorem second_doc_string_not_reported :
    ¬ ∀ s : List Char, firstViolation (.ofText s) = docStringReport (.ofText s) := by
  intro hAll
  have hSecond : docStringReport (.ofText twoDocStrings) =
      some ⟨⟨7, 7⟩, .docString, (⟨.scenario, false, false, false⟩ : Walker).expected,
        "\"\"\""⟩ := by
    decide +kernel
  have hReported : firstViolation (.ofText twoDocStrings) =
      some ⟨⟨10, 3⟩, .background, (⟨.scenario, false, false, false⟩ : Walker).expected,
        "Background:"⟩ := by
    decide +kernel
  have hSame := hAll twoDocStrings
  rw [hSecond, hReported] at hSame
  cases hSame

end Scenarist.Structure
