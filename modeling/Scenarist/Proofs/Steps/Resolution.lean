import Scenarist.Proofs.Refusal
import Scenarist.Steps.Registry

/-!
# Resolution of steps

What a registry answers for a keyword and a text depends on the definitions of the keyword that
match the text and on nothing else.  `Resolution` says how, with one constructor for each kind of
answer, and `resolveAt_eq_iff` says that `resolveAt` gives that answer and no other.

* `resolveAt_congr`: registries with the same matching definitions answer alike.
* `sameUpToOrder_of_perm`: the order of registration shows in the list of an ambiguous answer only.
-/

namespace Scenarist

variable {σ : Type}

/-! ### Bindings -/

namespace StepDefinition

/-- The converter for a binding: the one that the definition has for its name, or else its own. -/
def effective (d : StepDefinition σ) (b : Binding) : Option Converter :=
  match d.converters.find? fun c => c.1 = b.name with
  | some c => some c.2
  | none => b.converter

/-- The value of a binding: its text when there is no converter for it. -/
def Converts (d : StepDefinition σ) (b : Binding) (v : Value) : Prop :=
  match d.effective b with
  | some c => c b.raw = .ok v
  | none => v = .text b.raw

/-- The converter for a binding refuses its text. -/
def Rejects (d : StepDefinition σ) (b : Binding) (cause : String) : Prop :=
  ∃ c, d.effective b = some c ∧ c b.raw = .error cause

theorem effective_eq (d : StepDefinition σ) (b : Binding) :
    d.effective b = (d.converter? b.name <|> b.converter) := by
  unfold effective converter?
  cases d.converters.find? fun c => c.1 = b.name <;> rfl

theorem convert_eq_ok_iff {d : StepDefinition σ} {b : Binding} {a : String × Value} :
    d.convert b = .ok a ↔ a.1 = b.name ∧ d.Converts b a.2 := by
  obtain ⟨name, v⟩ := a
  unfold convert Converts
  rw [← effective_eq]
  cases d.effective b with
  | none => simp [eq_comm]
  | some c =>
    cases hc : c b.raw with
    | ok v' => simp [hc, eq_comm]
    | error cause => simp [hc]

theorem convert_eq_error_iff {d : StepDefinition σ} {b : Binding} {e : LookupError} :
    d.convert b = .error e ↔
      ∃ cause, d.Rejects b cause ∧ e = .conversion b.name b.raw d.describe cause := by
  unfold convert Rejects
  rw [← effective_eq]
  cases d.effective b with
  | none => simp
  | some c =>
    cases hc : c b.raw with
    | ok v => simp [hc]
    | error cause => simp [hc, eq_comm]

end StepDefinition

/-! ### Answers -/

namespace StepRegistry

/-- The definitions of a keyword whose pattern matches a text, in the order of registration. -/
def matching (r : StepRegistry σ) (keyword : StepKeyword) (text : String) :
    List (StepDefinition σ) :=
  r.definitions.filter fun d => d.keyword = keyword ∧ (d.pattern.attempt text).isSome

/-- What a registry answers for a keyword and a text at a place. -/
inductive Resolution (r : StepRegistry σ) (keyword : StepKeyword) (text : String)
    (location : Option Location) : Except LookupError (ResolvedStep σ) → Prop
  | notFound (unmatched : r.matching keyword text = []) :
      Resolution r keyword text location (.error (.notFound keyword text location))
  | ambiguous (several : 2 ≤ (r.matching keyword text).length) :
      Resolution r keyword text location (.error (.ambiguous keyword text location
        ((r.matching keyword text).map StepDefinition.describe)))
  | conversion {d : StepDefinition σ} {front back : List Binding} {b : Binding} {cause : String}
      (single : r.matching keyword text = [d])
      (bound : d.pattern.attempt text = some (front ++ b :: back))
      (converted : ∀ x ∈ front, ∃ v, d.Converts x v) (rejected : d.Rejects b cause) :
      Resolution r keyword text location
        (.error (.conversion b.name b.raw d.describe cause))
  | found {d : StepDefinition σ} {bindings : List Binding} {arguments : List (String × Value)}
      (single : r.matching keyword text = [d]) (bound : d.pattern.attempt text = some bindings)
      (converted : List.Forall₂ (fun b a => a.1 = b.name ∧ d.Converts b a.2) bindings arguments) :
      Resolution r keyword text location (.ok ⟨d, arguments⟩)

variable {r r' : StepRegistry σ} {keyword : StepKeyword} {text : String}
  {location : Option Location}

theorem candidates_eq (r : StepRegistry σ) (keyword : StepKeyword) (text : String) :
    r.candidates keyword text =
      (r.matching keyword text).filterMap fun d =>
        (d.pattern.attempt text).map fun bindings => (d, bindings) := by
  unfold candidates matching
  induction r.definitions with
  | nil => rfl
  | cons d rest ih =>
    by_cases hKeyword : d.keyword = keyword
    · cases hAttempt : d.pattern.attempt text with
      | none => simpa [hKeyword, hAttempt] using ih
      | some bindings => simpa [hKeyword, hAttempt] using ih
    · simpa [hKeyword] using ih

theorem attempt_of_mem_matching {d : StepDefinition σ} (h : d ∈ r.matching keyword text) :
    ∃ bindings, d.pattern.attempt text = some bindings := by
  have := (List.mem_filter.mp h).2
  exact Option.isSome_iff_exists.mp (of_decide_eq_true this).2

theorem map_fst_candidates (r : StepRegistry σ) (keyword : StepKeyword) (text : String) :
    (r.candidates keyword text).map (·.1) = r.matching keyword text := by
  rw [candidates_eq, List.map_filterMap]
  refine (List.filterMap_congr fun d hd => ?_).trans List.filterMap_some
  obtain ⟨bindings, hBindings⟩ := attempt_of_mem_matching hd
  rw [hBindings]
  rfl

/-- Registries with the same matching definitions answer alike. -/
theorem resolveAt_congr (h : r.matching keyword text = r'.matching keyword text) :
    r.resolveAt keyword text location = r'.resolveAt keyword text location := by
  unfold resolveAt
  rw [candidates_eq, candidates_eq, h]

theorem resolveAt_of_matching_nil (h : r.matching keyword text = []) :
    r.resolveAt keyword text location = .error (.notFound keyword text location) := by
  unfold resolveAt
  rw [candidates_eq, h]
  rfl

theorem resolveAt_of_matching_singleton {d : StepDefinition σ} {bindings : List Binding}
    (h : r.matching keyword text = [d]) (hBound : d.pattern.attempt text = some bindings) :
    r.resolveAt keyword text location = (bindings.mapM d.convert).map fun a => ⟨d, a⟩ := by
  unfold resolveAt
  rw [candidates_eq, h]
  simp only [List.filterMap_cons, List.filterMap_nil, hBound, Option.map_some]

theorem resolveAt_of_two_le_matching (h : 2 ≤ (r.matching keyword text).length) :
    r.resolveAt keyword text location = .error (.ambiguous keyword text location
      ((r.matching keyword text).map StepDefinition.describe)) := by
  rw [← map_fst_candidates] at h ⊢
  unfold resolveAt
  match r.candidates keyword text, h with
  | first :: second :: more, _ => simp only [List.map_map]; rfl

/-- **A registry gives the answer that `Resolution` describes, and no other.** -/
theorem resolveAt_eq_iff {answer : Except LookupError (ResolvedStep σ)} :
    r.resolveAt keyword text location = answer ↔
      Resolution r keyword text location answer := by
  constructor
  · rintro rfl
    rcases hMatching : r.matching keyword text with _ | ⟨d, _ | ⟨d', more⟩⟩
    · rw [resolveAt_of_matching_nil hMatching]
      exact .notFound hMatching
    · obtain ⟨bindings, hBound⟩ : ∃ bindings, d.pattern.attempt text = some bindings :=
        attempt_of_mem_matching (by rw [hMatching]; exact List.mem_singleton_self d)
      rw [resolveAt_of_matching_singleton hMatching hBound]
      cases hConvert : bindings.mapM d.convert with
      | ok arguments =>
        refine .found hMatching hBound ?_
        simpa only [StepDefinition.convert_eq_ok_iff] using mapM_eq_ok_iff.mp hConvert
      | error e =>
        obtain ⟨front, b, back, rfl, hFront, hb⟩ := mapM_eq_error_iff.mp hConvert
        obtain ⟨cause, hCause, rfl⟩ := StepDefinition.convert_eq_error_iff.mp hb
        refine .conversion hMatching hBound (fun x hx => ?_) hCause
        obtain ⟨a, ha⟩ := hFront x hx
        exact ⟨a.2, (StepDefinition.convert_eq_ok_iff.mp ha).2⟩
    · have hTwo : 2 ≤ (r.matching keyword text).length := by rw [hMatching]; simp
      rw [resolveAt_of_two_le_matching hTwo]
      exact .ambiguous hTwo
  · rintro (hNone | hTwo | ⟨hSingle, hBound, hFront, hb⟩ | ⟨hSingle, hBound, hAll⟩)
    · exact resolveAt_of_matching_nil hNone
    · exact resolveAt_of_two_le_matching hTwo
    · rw [resolveAt_of_matching_singleton hSingle hBound,
        mapM_eq_error_iff.mpr ⟨_, _, _, rfl, fun x hx => ?_,
          StepDefinition.convert_eq_error_iff.mpr ⟨_, hb, rfl⟩⟩]
      · rfl
      · obtain ⟨v, hv⟩ := hFront x hx
        exact ⟨(x.name, v), StepDefinition.convert_eq_ok_iff.mpr ⟨rfl, hv⟩⟩
    · rw [resolveAt_of_matching_singleton hSingle hBound, mapM_eq_ok_iff.mpr ?_]
      · rfl
      · simpa only [StepDefinition.convert_eq_ok_iff] using hAll

/-! ### Other registries -/

/-- Answers that differ at most in the order of the definitions that an ambiguous one lists. -/
inductive SameUpToOrder :
    Except LookupError (ResolvedStep σ) → Except LookupError (ResolvedStep σ) → Prop
  | same (answer : Except LookupError (ResolvedStep σ)) : SameUpToOrder answer answer
  | reordered (keyword : StepKeyword) (text : String) (location : Option Location)
      {listed listed' : List String} (perm : listed.Perm listed') :
      SameUpToOrder (.error (.ambiguous keyword text location listed))
        (.error (.ambiguous keyword text location listed'))

theorem sameUpToOrder_of_perm (h : r.definitions.Perm r'.definitions) :
    SameUpToOrder (r.resolveAt keyword text location) (r'.resolveAt keyword text location) := by
  have hMatching : (r.matching keyword text).Perm (r'.matching keyword text) := h.filter _
  by_cases hTwo : 2 ≤ (r.matching keyword text).length
  · rw [resolveAt_of_two_le_matching hTwo,
      resolveAt_of_two_le_matching (hMatching.length_eq ▸ hTwo)]
    exact .reordered keyword text location (hMatching.map _)
  · have hSame : r.matching keyword text = r'.matching keyword text := by
      rcases hCases : r.matching keyword text with _ | ⟨d, _ | ⟨d', more⟩⟩
      · exact (List.nil_perm.mp (hCases ▸ hMatching)).symm
      · exact (List.singleton_perm.mp (hCases ▸ hMatching))
      · rw [hCases] at hTwo
        exact absurd (by simp) hTwo
    rw [resolveAt_congr hSame]
    exact .same _

theorem matching_eq_filter_keyword (r : StepRegistry σ) (keyword : StepKeyword) (text : String) :
    r.matching keyword text =
      (r.definitions.filter fun d => d.keyword = keyword).filter fun d =>
        (d.pattern.attempt text).isSome := by
  rw [List.filter_filter, matching]
  refine List.filter_congr fun d _ => ?_
  rw [Bool.decide_and, Bool.and_comm]
  simp

/-- **What a registry answers for a keyword and a text.**  Let the matching definitions be those of
the keyword whose pattern matches the text, in the order of registration.

* The answer is the one that `Resolution` describes: not found when none matches, ambiguous with all
  descriptions when several do, whatever their converters would say, and for a single one the first
  binding that its effective converter rejects or else the definition with one argument a binding.
* In particular it is "not found" exactly when none matches and "ambiguous" exactly when several do.
* When the definitions are registered in another order only the order of an ambiguous list changes.
* Definitions of other keywords do not matter. -/
theorem resolveAt_depends_on_matching_definitions (r : StepRegistry σ) (keyword : StepKeyword)
    (text : String) (location : Option Location) :
    (∀ answer, r.resolveAt keyword text location = answer ↔
      Resolution r keyword text location answer) ∧
    (r.resolveAt keyword text location = .error (.notFound keyword text location) ↔
      r.matching keyword text = []) ∧
    (∀ listed, r.resolveAt keyword text location =
        .error (.ambiguous keyword text location listed) ↔
      2 ≤ (r.matching keyword text).length ∧
        listed = (r.matching keyword text).map StepDefinition.describe) ∧
    (∀ r' : StepRegistry σ, r.definitions.Perm r'.definitions →
      SameUpToOrder (r.resolveAt keyword text location) (r'.resolveAt keyword text location)) ∧
    (∀ r' : StepRegistry σ,
      (r.definitions.filter fun d => d.keyword = keyword) =
        (r'.definitions.filter fun d => d.keyword = keyword) →
      r.resolveAt keyword text location = r'.resolveAt keyword text location) := by
  refine ⟨fun answer => resolveAt_eq_iff, ?_, fun listed => ?_, fun r' => sameUpToOrder_of_perm,
    fun r' h => resolveAt_congr ?_⟩
  · rw [resolveAt_eq_iff]
    refine ⟨fun h => ?_, .notFound⟩
    cases h with
    | notFound unmatched => exact unmatched
  · rw [resolveAt_eq_iff]
    constructor
    · intro h
      cases h with
      | ambiguous several => exact ⟨several, rfl⟩
    · rintro ⟨several, rfl⟩
      exact .ambiguous several
  · rw [matching_eq_filter_keyword, matching_eq_filter_keyword, h]

end StepRegistry

end Scenarist
