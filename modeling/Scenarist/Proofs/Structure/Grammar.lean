import Mathlib.Computability.MyhillNerode
import Scenarist.Structure.Token

/-!
# The grammar of blocks

The order of blocks in a file, as languages of tokens.

* `document`: the whole files.
* `Viable`: what a document may begin with.
* `leftQuotient_steps_mul`, `leftQuotient_optional_background_mul`, `leftQuotient_examples_mul`,
  `leftQuotient_item_mul`: what may follow the first token of each part.
-/

namespace Scenarist.Structure

open Computability Language

namespace Grammar

/-- One token. -/
def token (t : Token) : Language Token := {[t]}

/-- What may follow a step: rows and a doc string. -/
def stepTail : Language Token := (token .row)∗ * (1 + token .docString)

def steps : Language Token := (token .step * stepTail)∗

def background : Language Token := token .background * ((token .text)∗ * steps)

def examples : Language Token :=
  (token .tag)∗ * (token .examples * ((token .text)∗ * (token .row)∗))

def scenario : Language Token :=
  (token .tag)∗ * (token .scenario * ((token .text)∗ * (steps * examples∗)))

def rule : Language Token :=
  (token .tag)∗ * (token .rule * ((token .text)∗ * (1 + background)))

def item : Language Token := scenario + rule

def feature : Language Token :=
  (token .tag)∗ * (token .feature * ((token .text)∗ * ((1 + background) * item∗)))

/-- The documents: nothing at all, or a feature. -/
def document : Language Token := 1 + feature

/-- A document may begin with the tokens. -/
def Viable (ts : List Token) : Prop := ∃ rest, ts ++ rest ∈ document

variable {L M : Language Token} {s t : Token}

/-! ### The empty sequence -/

theorem nil_mem_mul_iff : [] ∈ L * M ↔ [] ∈ L ∧ [] ∈ M := by
  constructor
  · intro h
    obtain ⟨u, hu, v, hv, hEq⟩ := mem_mul.mp h
    obtain ⟨rfl, rfl⟩ := List.append_eq_nil_iff.mp hEq
    exact ⟨hu, hv⟩
  · exact fun h => append_mem_mul h.1 h.2

theorem nil_notMem_token : [] ∉ token s := fun h => List.cons_ne_nil s [] (Eq.symm h)

theorem nil_mem_one_add : [] ∈ 1 + L := .inl nil_mem_one

theorem nil_notMem_feature : [] ∉ feature := by
  simp only [feature, nil_mem_mul_iff, nil_notMem_token, false_and, and_false, not_false_eq_true]

theorem nil_notMem_examples : [] ∉ examples := by
  simp only [examples, nil_mem_mul_iff, nil_notMem_token, false_and, and_false, not_false_eq_true]

theorem nil_notMem_item : [] ∉ item := by
  simp only [item, scenario, rule, mem_add, nil_mem_mul_iff, nil_notMem_token, false_and, and_false,
    or_self, not_false_eq_true]

/-! ### What follows a token -/

theorem leftQuotient_one : (1 : Language Token).leftQuotient [t] = 0 := by
  ext u
  exact ⟨fun h => absurd h (List.cons_ne_nil t u), fun h => absurd h (notMem_zero u)⟩

theorem leftQuotient_add : (L + M).leftQuotient [t] = L.leftQuotient [t] + M.leftQuotient [t] := rfl

theorem leftQuotient_token_mul :
    (token s * M).leftQuotient [t] = if t = s then M else 0 := by
  ext u
  split
  · next hEq =>
    subst hEq
    constructor
    · intro h
      obtain ⟨v, hv, w, hw, hEq⟩ := mem_mul.mp h
      rw [show v = [t] from hv] at hEq
      obtain rfl : w = u := (List.cons.inj hEq).2
      exact hw
    · exact fun h => append_mem_mul (a := [t]) rfl h
  · next hNe =>
    refine ⟨fun h => ?_, fun h => absurd h (notMem_zero u)⟩
    obtain ⟨v, hv, w, hw, hEq⟩ := mem_mul.mp h
    rw [show v = [s] from hv] at hEq
    exact absurd (List.cons.inj hEq).1.symm hNe

/-- A repetition begins with a turn, or what follows it is begun. -/
theorem leftQuotient_kstar_mul :
    (L∗ * M).leftQuotient [t] = (L * (L∗ * M)).leftQuotient [t] + M.leftQuotient [t] := by
  have hTurn : L∗ * M = L * (L∗ * M) + M := by
    calc L∗ * M = (1 + L * L∗) * M := by rw [one_add_self_mul_kstar_eq_kstar]
      _ = L * (L∗ * M) + M := by rw [add_mul, one_mul, mul_assoc, add_comm]
  rw [← leftQuotient_add, ← hTurn]

/-- A token that may come any number of times. -/
theorem leftQuotient_tokens_mul :
    ((token s)∗ * M).leftQuotient [t] =
      (if t = s then (token s)∗ * M else 0) + M.leftQuotient [t] := by
  rw [leftQuotient_kstar_mul, leftQuotient_token_mul]

/-! ### What follows the first token of a part -/

theorem leftQuotient_stepTail_mul :
    (stepTail * M).leftQuotient [t] = (if t = .row then stepTail * M else 0) +
      (M.leftQuotient [t] + if t = .docString then M else 0) := by
  rw [stepTail, mul_assoc, leftQuotient_tokens_mul, add_mul, one_mul, leftQuotient_add,
    leftQuotient_token_mul]

theorem leftQuotient_steps_mul :
    (steps * M).leftQuotient [t] =
      (if t = .step then stepTail * (steps * M) else 0) + M.leftQuotient [t] := by
  rw [steps, leftQuotient_kstar_mul, mul_assoc, leftQuotient_token_mul]

theorem leftQuotient_optional_background_mul :
    ((1 + background) * M).leftQuotient [t] =
      (if t = .background then (token .text)∗ * (steps * M) else 0) + M.leftQuotient [t] := by
  rw [add_mul, one_mul, add_comm, leftQuotient_add, background, mul_assoc, leftQuotient_token_mul,
    mul_assoc]

/-- Tags in front of a block leave the block to come. -/
theorem leftQuotient_examples_mul :
    (examples * M).leftQuotient [t] = (if t = .tag then examples * M else 0) +
      (if t = .examples then (token .text)∗ * ((token .row)∗ * M) else 0) := by
  simp only [examples, mul_assoc, leftQuotient_tokens_mul, leftQuotient_token_mul]

theorem leftQuotient_kstar_examples_mul :
    (examples∗ * M).leftQuotient [t] = (examples * (examples∗ * M)).leftQuotient [t] +
      M.leftQuotient [t] :=
  leftQuotient_kstar_mul

theorem leftQuotient_scenario_mul :
    (scenario * M).leftQuotient [t] = (if t = .tag then scenario * M else 0) +
      (if t = .scenario then (token .text)∗ * (steps * (examples∗ * M)) else 0) := by
  simp only [scenario, mul_assoc, leftQuotient_tokens_mul, leftQuotient_token_mul]

theorem leftQuotient_rule_mul :
    (rule * M).leftQuotient [t] = (if t = .tag then rule * M else 0) +
      (if t = .rule then (token .text)∗ * ((1 + background) * M) else 0) := by
  simp only [rule, mul_assoc, leftQuotient_tokens_mul, leftQuotient_token_mul]

theorem leftQuotient_item_mul :
    (item * M).leftQuotient [t] = (if t = .tag then item * M else 0) +
      ((if t = .scenario then (token .text)∗ * (steps * (examples∗ * M)) else 0) +
        (if t = .rule then (token .text)∗ * ((1 + background) * M) else 0)) := by
  rw [item, add_mul, leftQuotient_add, leftQuotient_scenario_mul, leftQuotient_rule_mul]
  split
  · exact add_add_add_comm ..
  · rw [zero_add, zero_add, zero_add]

theorem leftQuotient_items :
    (item∗).leftQuotient [t] = (item * item∗).leftQuotient [t] := by
  rw [← mul_one item∗, leftQuotient_kstar_mul, leftQuotient_one, add_zero]

theorem leftQuotient_feature :
    feature.leftQuotient [t] = (if t = .tag then feature else 0) +
      (if t = .feature then (token .text)∗ * ((1 + background) * item∗) else 0) := by
  rw [feature, leftQuotient_tokens_mul, leftQuotient_token_mul]

theorem leftQuotient_document : document.leftQuotient [t] = feature.leftQuotient [t] := by
  rw [document, leftQuotient_add, leftQuotient_one, zero_add]

end Grammar

end Scenarist.Structure
