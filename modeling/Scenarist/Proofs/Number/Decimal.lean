import Mathlib.Data.List.Basic
import Scenarist.Number.FloatText

/-!
# Decimal digits of natural numbers

* `le_foldl_tenfold`: a number grows as digits are added to it.
* `accumulate_toDigits`: the digits of a number are read as the number.
* `toString_injective`: a number is told by its numeral.
* `head?_toDigits_ne`: the digits of a number do not begin with a zero, unless the number is zero.
-/

namespace Scenarist.Number

/-- A number grows as digits are added to it. -/
theorem le_foldl_tenfold (value : Char → Nat) (n : Nat) (digits : List Char) :
    n ≤ digits.foldl (fun n c => 10 * n + value c) n := by
  induction digits generalizing n with
  | nil => exact Nat.le_refl n
  | cons c digits ih =>
    have hRest := ih (10 * n + value c)
    rw [List.foldl_cons]
    omega

theorem isAsciiDigit_eq_isDigit (c : Char) : isAsciiDigit c = c.isDigit := rfl

theorem digitValue?_of_isDigit {c : Char} (h : c.isDigit = true) :
    digitValue? c = some (c.toNat - '0'.toNat) := by
  rw [← isAsciiDigit_eq_isDigit, isAsciiDigit, Bool.and_eq_true, decide_eq_true_eq,
    decide_eq_true_eq] at h
  exact if_pos h

theorem accumulate_eq_ofDigitChars {digits : List Char} (h : ∀ c ∈ digits, c.isDigit = true)
    (n : Nat) : accumulate n digits = Nat.ofDigitChars 10 digits n := by
  induction digits generalizing n with
  | nil => rfl
  | cons c digits ih =>
    obtain ⟨hDigit, hDigits⟩ := List.forall_mem_cons.mp h
    rw [Nat.ofDigitChars_cons, ← ih hDigits, accumulate, List.foldl_cons,
      digitValue?_of_isDigit hDigit]
    rfl

variable {n : Nat}

theorem isAsciiDigit_of_mem_toDigits {c : Char} (h : c ∈ Nat.toDigits 10 n) :
    isAsciiDigit c = true := Nat.isDigit_of_mem_toDigits (by decide) (by decide) h

/-- The digits of a number are read as the number. -/
theorem accumulate_toDigits (n : Nat) : accumulate 0 (Nat.toDigits 10 n) = n := by
  rw [accumulate_eq_ofDigitChars fun _ => isAsciiDigit_of_mem_toDigits]
  exact Nat.ofDigitChars_ten_toDigits

/-- A number is told by its numeral. -/
theorem toString_injective : Function.Injective (toString : Nat → String) := by
  intro m n h
  have hDigits : Nat.toDigits 10 m = Nat.toDigits 10 n := String.ofList_injective h
  rw [← @Nat.ofDigitChars_ten_toDigits m, hDigits, Nat.ofDigitChars_ten_toDigits]

/-- The digits of a number do not begin with a zero, unless the number is zero. -/
theorem head?_toDigits_ne (h : 0 < n) : (Nat.toDigits 10 n).head? ≠ some '0' := by
  induction n using Nat.strongRecOn with
  | ind n ih =>
    by_cases hSmall : n < 10
    · rw [Nat.toDigits_of_lt_base hSmall, List.head?_cons]
      intro hZero
      have hEq := Nat.digitChar_eq_zero.mp (Option.some.inj hZero)
      omega
    · rw [Nat.toDigits_of_base_le (by decide) (by omega),
        List.head?_append_of_ne_nil _ Nat.toDigits_ne_nil]
      exact ih (n / 10) (by omega) (by omega)

end Scenarist.Number
