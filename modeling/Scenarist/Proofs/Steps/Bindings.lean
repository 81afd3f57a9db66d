import Scenarist.Proofs.Run.Arguments
import Scenarist.Proofs.Steps.Patterns
import Scenarist.Proofs.Steps.Resolution

/-!
# From bindings to arguments

Arguments go through a list of entries in which a name has one place, so two bindings of one name
would be one argument.  The patterns that are no custom ones do not bind a name twice.

* `found_of_assemble`: what a resolution binds is still there when the parameters are filled in.
* `no_binding_lost`: what a pattern captures it binds, and every binding of a resolution reaches the
  handler with its converted value.
-/

namespace Scenarist

/-! ### Arguments -/

variable {σ : Type}

theorem names_eq_of_forall₂ {P : Binding → Value → Prop} {bindings : List Binding}
    {arguments : List (String × Value)}
    (h : List.Forall₂ (fun b a => a.1 = b.name ∧ P b a.2) bindings arguments) :
    Entries.names arguments = bindings.map (·.name) := by
  induction h with
  | nil => rfl
  | cons hFirst _ ih => exact congrArg₂ List.cons hFirst.1 ih

/-- **What is bound under distinct names is still there when the parameters are filled in.** -/
theorem ResolvedStep.found_of_assemble {r : ResolvedStep σ}
    (hNames : (Entries.names r.arguments).Nodup) {s : Step} {fixtures : FixtureResolver}
    {a : StepArguments} (h : r.assemble s fixtures = .ok a) {entry : String × Value}
    (hEntry : entry ∈ r.arguments) : a.value? entry.1 = some entry.2 := by
  have hFilled := StepDefinition.filled_of_foldlM h
  have hFound : (StepArguments.ofList r.arguments).value? entry.1 = some entry.2 :=
    (Entries.find?_eq_some_iff (Entries.ascending_ofList _).nodup).mpr
      ((Entries.ofList_perm hNames).mem_iff.mpr hEntry)
  rw [hFilled.kept entry.1 (Entries.mem_names_iff.mpr (Option.isSome_of_eq_some hFound)), hFound]

/-- **Nothing that a pattern captures is lost on its way to the handler**, whatever the definition,
the step and the fixtures.

* What the pattern binds of a text is nothing for an exact text, the named groups that took part for
  an expression, and the values of all fields for a text with fields.
* The bindings have distinct names.
* So the arguments that a resolution is turned into are its bindings with their converted values,
  one entry for each, and each of them is still there when the parameters have been filled in. -/
theorem no_binding_lost {p : StepPattern} (hBuilt : p.Built) :
    (∀ text, (p.attempt text).isSome = true ↔ ∃ bindings, p.Binds text bindings) ∧
    (∀ text bindings, p.attempt text = some bindings →
      p.Binds text bindings ∧ (bindings.map (·.name)).Nodup) ∧
    ∀ (registry : StepRegistry σ) (keyword : StepKeyword) (text : String)
      (location : Option Location) (r : ResolvedStep σ),
      registry.resolveAt keyword text location = .ok r → r.definition.pattern = p →
        ∃ bindings, p.attempt text = some bindings ∧
          List.Forall₂ (fun b a => a.1 = b.name ∧ r.definition.Converts b a.2) bindings
            r.arguments ∧
          (StepArguments.ofList r.arguments).entries.Perm r.arguments ∧
          ∀ step fixtures a, r.assemble step fixtures = .ok a →
            ∀ entry ∈ r.arguments, a.value? entry.1 = some entry.2 := by
  refine ⟨fun text => StepPattern.attempt_isSome_iff_binds hBuilt, fun text bindings h =>
    ⟨StepPattern.binds_of_attempt hBuilt h, StepPattern.nodup_names_of_attempt hBuilt h⟩, ?_⟩
  intro registry keyword text location r hResolved hPattern
  cases StepRegistry.resolveAt_eq_iff.mp hResolved with
  | @found d bindings arguments single bound converted =>
    obtain rfl : d.pattern = p := hPattern
    have hNames : (Entries.names arguments).Nodup := by
      rw [names_eq_of_forall₂ converted]
      exact StepPattern.nodup_names_of_attempt hBuilt bound
    exact ⟨bindings, bound, converted, Entries.ofList_perm hNames,
      fun step fixtures a h entry => ResolvedStep.found_of_assemble hNames h⟩

/-! A text with a named field between two that are counted, and an expression with two named groups
of which one may take no part. -/

open Format in
def debtPattern : FormatPattern :=
  let parts : List Part := [.field ⟨"0", none, true⟩, .text " owes ".toList,
    .field ⟨"name", none, false⟩, .text [' '], .field ⟨"1", some "d", true⟩]
  ⟨"{} owes {name} {:d}", parts, ⟨body parts, [none, none, none]⟩⟩

def paySource : String := "I pay (?P<amount>\\d*) (?:EUR|USD)(?P<note> quickly)?"

/-- A definition with a pattern. -/
def definitionOf (p : StepPattern) : StepDefinition Unit :=
  ⟨.given, p, fun _ s => (.done, s), [], [], .caller⟩

theorem resolveAt_definitionOf {p : StepPattern} {text : String} {bindings : List Binding}
    (h : p.attempt text = some bindings) :
    StepRegistry.resolveAt ⟨[definitionOf p]⟩ .given text none =
      (bindings.mapM (definitionOf p).convert).map fun a => ⟨definitionOf p, a⟩ := by
  refine StepRegistry.resolveAt_of_matching_singleton ?_ h
  simp [StepRegistry.matching, definitionOf, h]

theorem no_binding_lost_of_fields_and_groups :
    (StepPattern.ofFormat "{} owes {name} {:d}" = .ok (.format debtPattern) ∧
      ∃ r, StepRegistry.resolveAt ⟨[definitionOf (.format debtPattern)]⟩ .given "ann owes bob 3"
          none = .ok r ∧
        r.arguments = [("0", .text "ann"), ("name", .text "bob"), ("1", .int .i64 3)] ∧
        (StepArguments.ofList r.arguments).entries.Perm r.arguments) ∧
    ∃ p, StepPattern.ofExpression paySource = .ok p ∧
      p.Binds "I pay 30 EUR" [.text "amount" "30"] ∧
      p.Binds "I pay  EUR quickly" [.text "amount" "", .text "note" " quickly"] ∧
      ∃ r, StepRegistry.resolveAt ⟨[definitionOf p]⟩ .given "I pay  EUR quickly" none = .ok r ∧
        r.arguments = [("amount", .text ""), ("note", .text " quickly")] ∧
        (StepArguments.ofList r.arguments).entries.Perm r.arguments := by
  constructor
  · have hCompile : FormatPattern.compile "{} owes {name} {:d}" = .ok debtPattern := by
      decide +kernel
    have hAccepted := StepPattern.ofFormat_eq_ok_iff.mpr ⟨_, hCompile, rfl⟩
    have hCaptured : debtPattern.captures "ann owes bob 3".toList =
        some [⟨"0", none, "ann"⟩, ⟨"name", none, "bob"⟩, ⟨"1", some "d", "3"⟩] := by
      decide +kernel
    have hBound : (StepPattern.format debtPattern).attempt "ann owes bob 3" = some _ :=
      congrArg (Option.map (List.map Binding.ofField)) hCaptured
    have hResolved := resolveAt_definitionOf hBound
    obtain ⟨-, -, hReached⟩ := no_binding_lost (σ := Unit) (.format hAccepted)
    obtain ⟨_, -, -, hPerm, -⟩ := hReached _ .given _ none _ hResolved rfl
    exact ⟨hAccepted, _, hResolved, rfl, hPerm⟩
  · have hNames : (Expression.read (StepPattern.anchored paySource.toList)).map (·.names) =
        .ok [some "amount", some "note"] := by
      decide +kernel
    have hPlain : (Expression.read (StepPattern.anchored paySource.toList)).map
        (·.captures "I pay 30 EUR".toList) = .ok (some [some "30".toList, none]) := by
      decide +kernel
    have hQuickly : (Expression.read (StepPattern.anchored paySource.toList)).map
        (·.captures "I pay  EUR quickly".toList) =
          .ok (some [some [], some " quickly".toList]) := by
      decide +kernel
    obtain ⟨e, hRead, hNames⟩ := map_eq_ok_iff.mp hNames
    rw [hRead] at hPlain hQuickly
    have hAccepted := StepPattern.ofExpression_eq_ok_iff.mpr ⟨e, hRead, rfl⟩
    have hBound : ∀ {text groups}, e.captures text.toList = some groups →
        (StepPattern.expression paySource e).attempt text =
          some (StepPattern.namedGroups [some "amount", some "note"] groups) := by
      intro text groups hCaptures
      rw [StepPattern.attempt, hCaptures, hNames, Option.map_some]
    have hFirst := hBound (Except.ok.inj hPlain)
    have hSecond := hBound (Except.ok.inj hQuickly)
    have hResolved := resolveAt_definitionOf hSecond
    obtain ⟨-, hBinds, hReached⟩ := no_binding_lost (σ := Unit) (.expression hAccepted)
    obtain ⟨_, -, -, hPerm, -⟩ := hReached _ .given _ none _ hResolved rfl
    exact ⟨_, hAccepted, (hBinds _ _ hFirst).1, (hBinds _ _ hSecond).1, _, hResolved, rfl, hPerm⟩

end Scenarist
