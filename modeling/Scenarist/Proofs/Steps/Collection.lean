import Scenarist.Proofs.Refusal
import Scenarist.Steps.Collection

/-!
# Operations on collections

An operation on a collection of definitions may fail: a conjunction cannot be registered, and a
submission with a conjunction or with a malformed pattern cannot be collected.  Submissions are added
one by one, so that those in front of the first refused one are in the collection when it fails.

* `addAll_of_collects`: what a series of submissions adds, and how it ends.
* `Operation.run_eq_iff`: the same for any operation.
* `failed_operation_unchanged_iff`: which operations leave the collection unchanged when they fail.
* `collecting_leaves_half`: so not every failing operation does.
-/

namespace Scenarist

variable {σ : Type}

/-! ### Submissions -/

namespace Submission

/-- A submission that cannot be registered. -/
def Refused (s : Submission σ) : Prop :=
  (∃ e, StepPattern.ofFormat s.pattern = .error e) ∨ s.keyword.isConjunction = true

/-- The definition of a submission has all that the submission has, and its place. -/
theorem definition_eq_ok_iff {s : Submission σ} {d : StepDefinition σ} :
    s.definition = .ok d ↔ s.keyword.isConjunction = false ∧
      ∃ p, FormatPattern.compile s.pattern = .ok p ∧
        d = ⟨s.keyword, .format p, s.handler, s.parameters, [], .line s.file s.line⟩ := by
  unfold definition StepPattern.ofFormat StepDefinition.ofHandler
  cases FormatPattern.compile s.pattern with
  | error e => exact ⟨fun h => (by cases h), fun ⟨_, _, h, _⟩ => (by cases h)⟩
  | ok p =>
    cases s.keyword.isConjunction with
    | true => exact ⟨fun h => (by cases h), fun ⟨h, _⟩ => (by cases h)⟩
    | false =>
      constructor
      · intro h
        cases h
        exact ⟨rfl, p, rfl, rfl⟩
      · rintro ⟨-, p', hp, rfl⟩
        cases hp
        rfl

/-- Whether a submission is refused can be computed. -/
theorem refused_iff {s : Submission σ} :
    s.Refused ↔
      (FormatPattern.compile s.pattern).isOk = false ∨ s.keyword.isConjunction = true := by
  unfold Refused StepPattern.ofFormat
  cases FormatPattern.compile s.pattern with
  | error e => exact ⟨fun _ => .inl rfl, fun _ => .inl ⟨_, rfl⟩⟩
  | ok p => simp [Except.isOk, Except.toBool, Except.map, Except.mapError]

/-- A submission is refused when it has no definition. -/
theorem exists_definition_eq_error_iff {s : Submission σ} :
    (∃ e, s.definition = .error e) ↔ s.Refused := by
  unfold definition Refused StepDefinition.ofHandler
  cases StepPattern.ofFormat s.pattern with
  | error e => exact ⟨fun _ => .inl ⟨e, rfl⟩, fun _ => ⟨e, rfl⟩⟩
  | ok p =>
    cases s.keyword.isConjunction with
    | true => exact ⟨fun _ => .inr rfl, fun _ => ⟨_, rfl⟩⟩
    | false =>
      constructor
      · rintro ⟨e, h⟩
        cases h
      · rintro (⟨e, h⟩ | h) <;> cases h

/-- Submissions and what they are definitions of, one for one. -/
def Define (submissions : List (Submission σ)) (definitions : List (StepDefinition σ)) : Prop :=
  List.Forall₂ (fun s d => s.definition = .ok d) submissions definitions

/-- How a series of submissions is collected: all of them are, or those in front of the first that
is refused. -/
inductive Collects : List (Submission σ) → Except RegistrationError Unit →
    List (StepDefinition σ) → Prop
  | all {submissions : List (Submission σ)} {added : List (StepDefinition σ)}
      (defined : Define submissions added) : Collects submissions (.ok ()) added
  | stops {front back : List (Submission σ)} {bad : Submission σ} {e : RegistrationError}
      {added : List (StepDefinition σ)} (defined : Define front added)
      (refused : bad.definition = .error e) : Collects (front ++ bad :: back) (.error e) added

theorem collects_ok_iff {submissions : List (Submission σ)} {added : List (StepDefinition σ)} :
    Collects submissions (.ok ()) added ↔ Define submissions added := by
  refine ⟨fun h => ?_, .all⟩
  cases h with
  | all defined => exact defined

theorem collects_error_iff {submissions : List (Submission σ)} {e : RegistrationError}
    {added : List (StepDefinition σ)} :
    Collects submissions (.error e) added ↔ ∃ front bad back,
      submissions = front ++ bad :: back ∧ Define front added ∧ bad.definition = .error e := by
  constructor
  · intro h
    cases h with
    | stops defined refused => exact ⟨_, _, _, rfl, defined, refused⟩
  · rintro ⟨front, bad, back, rfl, defined, refused⟩
    exact .stops defined refused

theorem exists_collects (submissions : List (Submission σ)) :
    ∃ answer added, Collects submissions answer added := by
  induction submissions with
  | nil => exact ⟨_, [], .all .nil⟩
  | cons s rest ih =>
    cases hs : s.definition with
    | error e => exact ⟨_, [], collects_error_iff.mpr ⟨[], s, rest, rfl, .nil, hs⟩⟩
    | ok d =>
      obtain ⟨answer, added, hRest⟩ := ih
      cases answer with
      | ok _ => exact ⟨_, d :: added, .all (.cons hs (collects_ok_iff.mp hRest))⟩
      | error e =>
        obtain ⟨front, bad, back, rfl, defined, refused⟩ := collects_error_iff.mp hRest
        exact ⟨_, d :: added,
          collects_error_iff.mpr ⟨s :: front, bad, back, rfl, .cons hs defined, refused⟩⟩

theorem not_refused_of_define {submissions : List (Submission σ)}
    {added : List (StepDefinition σ)} (h : Define submissions added) :
    ∀ s ∈ submissions, ¬ s.Refused := by
  unfold Define at h
  induction h with
  | nil => exact fun s hs => absurd hs List.not_mem_nil
  | cons hFirst _ ih =>
    refine List.forall_mem_cons.mpr ⟨fun hRefused => ?_, ih⟩
    obtain ⟨e, hError⟩ := exists_definition_eq_error_iff.mpr hRefused
    rw [hFirst] at hError
    cases hError

theorem exists_collects_error_iff {submissions : List (Submission σ)} :
    (∃ e added, Collects submissions (.error e) added) ↔ ∃ s ∈ submissions, s.Refused := by
  constructor
  · rintro ⟨e, added, h⟩
    obtain ⟨front, bad, back, rfl, -, refused⟩ := collects_error_iff.mp h
    exact ⟨bad, List.mem_append_right _ List.mem_cons_self,
      exists_definition_eq_error_iff.mp ⟨e, refused⟩⟩
  · rintro ⟨s, hs, hRefused⟩
    obtain ⟨answer, added, h⟩ := exists_collects submissions
    cases answer with
    | ok _ => exact absurd hRefused (not_refused_of_define (collects_ok_iff.mp h) s hs)
    | error e => exact ⟨e, added, h⟩

end Submission

open Submission

namespace StepCollection

theorem addAll_append {front : List (Submission σ)} {added : List (StepDefinition σ)}
    (h : Define front added) (back : List (Submission σ)) (c : StepCollection σ) :
    addAll (front ++ back) c = addAll back ⟨c.definitions ++ added⟩ := by
  unfold Define at h
  induction h generalizing c with
  | nil => rw [List.nil_append, List.append_nil]
  | cons hs _ ih =>
    rw [List.cons_append, addAll, hs]
    show addAll _ (c.add _) = _
    rw [ih, add, List.append_assoc, List.singleton_append]

/-- **What a series of submissions adds, and how it ends.** -/
theorem addAll_of_collects {submissions : List (Submission σ)}
    {answer : Except RegistrationError Unit} {added : List (StepDefinition σ)}
    (h : Collects submissions answer added) (c : StepCollection σ) :
    addAll submissions c = (answer, ⟨c.definitions ++ added⟩) := by
  cases h with
  | all defined =>
    have hAll := addAll_append defined [] c
    rwa [List.append_nil] at hAll
  | stops defined refused => rw [addAll_append defined, addAll, refused]

end StepCollection

/-! ### Operations -/

/-- An operation on a collection. -/
inductive Operation (σ : Type)
  | register (keyword : StepKeyword) (pattern : StepPattern) (handler : Handler σ)
  | add (d : StepDefinition σ)
  | collect (submissions : List (Submission σ))

namespace Operation

def run : Operation σ → StepCollection σ → Except RegistrationError Unit × StepCollection σ
  | register keyword pattern handler, c => c.register keyword pattern handler
  | add d, c => (.ok (), c.add d)
  | collect submissions, c => c.addSubmitted submissions

/-- The collection behind a series of operations. -/
def after (history : List (Operation σ)) : StepCollection σ :=
  history.foldl (fun c op => (op.run c).2) .empty

/-- What an operation adds, and how it ends. -/
inductive Adds : Operation σ → Except RegistrationError Unit → List (StepDefinition σ) → Prop
  | registered {keyword : StepKeyword} {pattern : StepPattern} {handler : Handler σ}
      (primary : keyword.isConjunction = false) :
      Adds (register keyword pattern handler) (.ok ())
        [⟨keyword, pattern, handler, [], [], .caller⟩]
  | conjunction {keyword : StepKeyword} {pattern : StepPattern} {handler : Handler σ}
      (conjunction : keyword.isConjunction = true) :
      Adds (register keyword pattern handler) (.error (.conjunction keyword)) []
  | added (d : StepDefinition σ) : Adds (add d) (.ok ()) [d]
  | collected {submissions : List (Submission σ)} {answer : Except RegistrationError Unit}
      {added : List (StepDefinition σ)} (h : Collects (sorted submissions) answer added) :
      Adds (collect submissions) answer added

theorem exists_adds (op : Operation σ) : ∃ answer added, op.Adds answer added := by
  cases op with
  | register keyword pattern handler =>
    cases h : keyword.isConjunction with
    | false => exact ⟨_, _, .registered h⟩
    | true => exact ⟨_, _, .conjunction h⟩
  | add d => exact ⟨_, _, .added d⟩
  | collect submissions =>
    obtain ⟨answer, added, h⟩ := exists_collects (sorted submissions)
    exact ⟨_, _, .collected h⟩

theorem run_of_adds {op : Operation σ} {answer : Except RegistrationError Unit}
    {added : List (StepDefinition σ)} (h : op.Adds answer added) (c : StepCollection σ) :
    op.run c = (answer, ⟨c.definitions ++ added⟩) := by
  cases h with
  | registered primary =>
    rw [run, StepCollection.register, StepDefinition.ofHandler, primary]
    rfl
  | conjunction h =>
    rw [run, StepCollection.register, StepDefinition.ofHandler, if_pos h, List.append_nil]
  | added d => rfl
  | collected h => exact StepCollection.addAll_of_collects h c

/-- **What an operation adds, and how it ends.** -/
theorem run_eq_iff {op : Operation σ} {c c' : StepCollection σ}
    {answer : Except RegistrationError Unit} :
    op.run c = (answer, c') ↔ ∃ added, op.Adds answer added ∧ c' = ⟨c.definitions ++ added⟩ := by
  constructor
  · intro h
    obtain ⟨answer', added, hAdds⟩ := op.exists_adds
    rw [run_of_adds hAdds] at h
    cases h
    exact ⟨added, hAdds, rfl⟩
  · rintro ⟨added, hAdds, rfl⟩
    exact run_of_adds hAdds c

/-- The operation registers a conjunction, or it collects a submission that is refused. -/
def Fails : Operation σ → Prop
  | register keyword _ _ => keyword.isConjunction = true
  | add _ => False
  | collect submissions => ∃ s ∈ submissions, s.Refused

/-- The operation collects submissions of which the first one is accepted. -/
def BeginsWithAccepted : Operation σ → Prop
  | collect submissions => ∃ first, (sorted submissions).head? = some first ∧ ¬ first.Refused
  | _ => False

theorem exists_adds_error_iff {op : Operation σ} :
    (∃ e added, op.Adds (.error e) added) ↔ op.Fails := by
  constructor
  · rintro ⟨e, added, h⟩
    cases h with
    | conjunction h => exact h
    | collected h =>
      obtain ⟨s, hs, hRefused⟩ := exists_collects_error_iff.mp ⟨e, added, h⟩
      exact ⟨s, List.mem_mergeSort.mp hs, hRefused⟩
  · intro h
    cases op with
    | register keyword pattern handler => exact ⟨_, _, .conjunction h⟩
    | add d => cases h
    | collect submissions =>
      obtain ⟨s, hs, hRefused⟩ := h
      obtain ⟨e, added, hCollects⟩ :=
        exists_collects_error_iff.mpr ⟨s, List.mem_mergeSort.mpr hs, hRefused⟩
      exact ⟨e, added, .collected hCollects⟩

/-- An operation that fails has added nothing unless its first submission is accepted. -/
theorem eq_nil_iff_of_adds_error {op : Operation σ} {e : RegistrationError}
    {added : List (StepDefinition σ)} (h : op.Adds (.error e) added) :
    added = [] ↔ ¬ op.BeginsWithAccepted := by
  cases h with
  | conjunction h => exact ⟨fun _ hBegins => hBegins, fun _ => rfl⟩
  | @collected submissions _ _ h =>
    show added = [] ↔ ¬ ∃ first, (sorted submissions).head? = some first ∧ ¬ first.Refused
    obtain ⟨front, bad, back, hOrder, defined, refused⟩ := collects_error_iff.mp h
    rw [hOrder]
    cases defined with
    | nil =>
      refine ⟨?_, fun _ => rfl⟩
      rintro - ⟨first, hHead, hAccepted⟩
      cases hHead
      exact hAccepted (exists_definition_eq_error_iff.mp ⟨e, refused⟩)
    | cons hFirst hRest =>
      have hAccepted := not_refused_of_define (.cons hFirst hRest) _ List.mem_cons_self
      exact ⟨fun hNil => (by cases hNil), fun hNone => absurd ⟨_, rfl, hAccepted⟩ hNone⟩

/-- **Operations that fail.**

* An operation fails when it registers a conjunction or collects a submission that is refused.
* The collection then holds what it held before and, behind it, the definitions of the submissions
  in front of the first refused one, in the order of their places.
* So it is unchanged exactly when the operation collects no submissions that begin with an accepted
  one; in particular when it registers. -/
theorem failed_operation_unchanged_iff (op : Operation σ) (c : StepCollection σ) :
    ((∃ e, (op.run c).1 = .error e) ↔ op.Fails) ∧
    (∀ e c', op.run c = (.error e, c') ↔
      ∃ added, op.Adds (.error e) added ∧ c' = ⟨c.definitions ++ added⟩) ∧
    (∀ e c', op.run c = (.error e, c') → (c' = c ↔ ¬ op.BeginsWithAccepted)) := by
  refine ⟨?_, fun e c' => run_eq_iff, fun e c' h => ?_⟩
  · rw [← exists_adds_error_iff]
    constructor
    · rintro ⟨e, h⟩
      obtain ⟨added, hAdds, -⟩ := run_eq_iff.mp (Prod.ext h rfl)
      exact ⟨e, added, hAdds⟩
    · rintro ⟨e, added, h⟩
      exact ⟨e, congrArg Prod.fst (run_of_adds h c)⟩
  · obtain ⟨added, hAdds, rfl⟩ := run_eq_iff.mp h
    rw [← eq_nil_iff_of_adds_error hAdds]
    constructor
    · intro hSame
      exact List.append_right_eq_self.mp (congrArg StepCollection.definitions hSame)
    · rintro rfl
      rw [List.append_nil]

/-- A step and, behind it, one with a conjunction. -/
def acceptedThenRefused : List (Submission Unit) :=
  let handler : Handler Unit := fun _ s => (.done, s)
  [⟨.given, "a user", handler, [], "steps.rs", 1⟩, ⟨.and, "a basket", handler, [], "steps.rs", 2⟩]

/-- **Not every operation that fails leaves the collection as it was**: the submissions in front of
the first refused one stay. -/
theorem collecting_leaves_half :
    ¬ ∀ (history : List (Operation Unit)) (op : Operation Unit) (e : RegistrationError),
      (op.run (after history)).1 = .error e → (op.run (after history)).2 = after history := by
  intro hAll
  let op : Operation Unit := .collect acceptedThenRefused
  have hSorted : sorted acceptedThenRefused = acceptedThenRefused :=
    List.mergeSort_of_pairwise (by decide)
  have hFails : op.Fails := ⟨_, List.mem_cons_of_mem _ List.mem_cons_self, .inr rfl⟩
  have hBegins : op.BeginsWithAccepted := by
    refine ⟨_, by rw [hSorted]; rfl, fun hRefused => ?_⟩
    rcases refused_iff.mp hRefused with hPattern | hKeyword
    · exact absurd hPattern (by decide +kernel)
    · cases hKeyword
  obtain ⟨e, added, hAdds⟩ := exists_adds_error_iff.mpr hFails
  have hRun := run_of_adds hAdds (after [])
  have hSame := hAll [] op e (congrArg Prod.fst hRun)
  rw [hRun] at hSame
  exact (eq_nil_iff_of_adds_error hAdds).mp (congrArg StepCollection.definitions hSame) hBegins

end Operation

end Scenarist
