import Mathlib.Tactic.Ring
import Scenarist.Number.Integer
import Scenarist.Proofs.Format.Fragment
import Scenarist.Proofs.Number.Decimal
import Scenarist.Proofs.Text.Ascii

/-!
# Texts of integers

A text of decimal digits of any script, with or without a sign, denotes an integer.  Reading knows
the digits of ASCII only.

* `readDigits_of_ascii`: digits of ASCII are read as the number that they denote when the type has
  it, and refused otherwise.
* `read_eq_ok_iff`: what is read of a text of digits with or without a sign.
-/

namespace Scenarist

namespace Unicode

/-- The value of a decimal digit.  The digits of a script follow one another from zero to nine. -/
def decimalValue (c : Char) : Nat :=
  match decimalDigitRanges.find? fun r => r.1 ≤ c.toNat ∧ c.toNat ≤ r.2 with
  | some r => (c.toNat - r.1) % 10
  | none => 0

end Unicode

namespace Number

/-- The number that decimal digits denote, continuing from `n`. -/
def magnitudeFrom (n : Nat) (digits : List Char) : Nat :=
  digits.foldl (fun n c => 10 * n + Unicode.decimalValue c) n

/-- The integer that digits with or without a sign denote. -/
def denoted : List Char → Int
  | '+' :: digits => magnitudeFrom 0 digits
  | '-' :: digits => -magnitudeFrom 0 digits
  | digits => magnitudeFrom 0 digits

/-- The type has the integer. -/
def IntType.Holds (t : IntType) (n : Int) : Prop := t.least ≤ n ∧ n ≤ t.greatest

instance (t : IntType) (n : Int) : Decidable (t.Holds n) :=
  inferInstanceAs (Decidable (_ ∧ _))

/-! ### Digits of ASCII -/

theorem lt_of_digitValue? {c : Char} {d : Nat} (h : digitValue? c = some d) : c.toNat < 128 := by
  unfold digitValue? at h
  split at h
  · next hRange =>
    have hLe : c.toNat ≤ 57 := hRange.2
    omega
  · exact absurd h (by simp)

/-- A digit of ASCII has the value that it has among the digits of all scripts. -/
theorem digitValue?_of_ascii {c : Char} (hDigit : Unicode.isDecimalDigit c = true)
    (hAscii : c.toNat < 128) : digitValue? c = some (Unicode.decimalValue c) := by
  have hEach := forall_ascii (fun c => Unicode.isDecimalDigit c = true →
    digitValue? c = some (Unicode.decimalValue c)) (by decide +kernel) hAscii
  exact hEach hDigit

namespace IntType

variable {t : IntType}

theorem least_le_zero (t : IntType) : t.least ≤ 0 := by cases t <;> decide

theorem zero_le_greatest (t : IntType) : 0 ≤ t.greatest := by cases t <;> decide

theorem fit_of_holds {n : Int} (h : t.Holds n) : t.fit n = .ok n := by
  obtain ⟨hLeast, hGreatest⟩ := h
  rw [fit, if_neg (by omega), if_neg (by omega)]

theorem exists_fit_eq_error {n : Int} (h : ¬ t.Holds n) : ∃ e, t.fit n = .error e := by
  unfold fit
  split
  · exact ⟨_, rfl⟩
  · split
    · exact ⟨_, rfl⟩
    · next hLeast hGreatest => exact absurd ⟨by omega, by omega⟩ h

/-- A number that is out of range on the way to zero is out of range. -/
theorem holds_of_le {sign : Int} (hSign : sign = 1 ∨ sign = -1) {m n : Nat} (hLe : m ≤ n)
    (h : t.Holds (sign * n)) : t.Holds (sign * m) := by
  have hLeast := t.least_le_zero
  have hGreatest := t.zero_le_greatest
  obtain ⟨hLow, hHigh⟩ := h
  rcases hSign with rfl | rfl
  · exact ⟨by omega, by omega⟩
  · exact ⟨by omega, by omega⟩

/-- **Digits are read as the number that they denote when the type has it, and refused otherwise**;
a number on the way to it is never out of range before it is. -/
theorem readDigits_of_ascii {sign : Int} (hSign : sign = 1 ∨ sign = -1) {digits : List Char}
    (hDigits : ∀ c ∈ digits, Unicode.isDecimalDigit c = true) (hAscii : IsAscii digits) {m : Nat}
    (hStart : t.Holds (sign * m)) :
    (t.Holds (sign * magnitudeFrom m digits) →
      t.readDigits sign (sign * m) digits = .ok (sign * magnitudeFrom m digits)) ∧
    (¬ t.Holds (sign * magnitudeFrom m digits) →
      ∃ e, t.readDigits sign (sign * m) digits = .error e) := by
  induction digits generalizing m with
  | nil => exact ⟨fun _ => rfl, fun h => absurd hStart h⟩
  | cons c digits ih =>
    have hValue := digitValue?_of_ascii (hDigits c List.mem_cons_self) (hAscii c List.mem_cons_self)
    have hNext : 10 * (sign * m) + sign * (Unicode.decimalValue c : Nat) =
        sign * ((10 * m + Unicode.decimalValue c : Nat) : Int) := by
      push_cast
      ring
    have hGrow : 10 * m + Unicode.decimalValue c ≤ magnitudeFrom m (c :: digits) :=
      le_foldl_tenfold Unicode.decimalValue _ digits
    by_cases hHolds : t.Holds (sign * ((10 * m + Unicode.decimalValue c : Nat) : Int))
    · have hStep : t.readDigits sign (sign * m) (c :: digits) =
          t.readDigits sign (sign * ((10 * m + Unicode.decimalValue c : Nat) : Int)) digits := by
        rw [readDigits, hValue]
        simp only [hNext, fit_of_holds hHolds]
      rw [hStep]
      exact ih (fun d hd => hDigits d (List.mem_cons_of_mem c hd))
        (fun d hd => hAscii d (List.mem_cons_of_mem c hd)) hHolds
    · obtain ⟨e, hError⟩ := exists_fit_eq_error hHolds
      have hRefused : t.readDigits sign (sign * m) (c :: digits) = .error e := by
        rw [readDigits, hValue]
        simp only [hNext, hError]
      exact ⟨fun h => absurd (holds_of_le hSign hGrow h) hHolds, fun _ => ⟨e, hRefused⟩⟩

theorem ascii_of_readDigits {sign acc n : Int} {digits : List Char}
    (h : t.readDigits sign acc digits = .ok n) : IsAscii digits := by
  induction digits generalizing acc with
  | nil => exact fun c hc => absurd hc List.not_mem_nil
  | cons c digits ih =>
    rw [readDigits] at h
    split at h
    · exact absurd h (by simp)
    · next d hValue =>
      split at h
      · exact absurd h (by simp)
      · intro e he
        rcases List.mem_cons.mp he with rfl | he
        · exact lt_of_digitValue? hValue
        · exact ih h e he

/-! ### Signs -/

/-- A text of an integer has digits behind a sign or behind none; what the sign says decides how the
digits are read. -/
theorem exists_digits {s : List Char}
    (hText : s ∈ (if t.isSigned then FieldKind.signed else .unsigned).language) :
    ∃ (sign : Int) (ds : List Char), (sign = 1 ∨ sign = -1) ∧ ds ∈ digits ∧
      denoted s = sign * magnitudeFrom 0 ds ∧ t.read s = t.readDigits sign 0 ds ∧
      (IsAscii s ↔ IsAscii ds) := by
  have hBare : ∀ ds ∈ digits, denoted ds = 1 * magnitudeFrom 0 ds ∧
      t.read ds = t.readDigits 1 0 ds := by
    rintro ds ⟨hNonempty, hDigits⟩
    cases ds with
    | nil => exact absurd rfl hNonempty
    | cons c ds =>
      have hDigit := hDigits c List.mem_cons_self
      have hPlus : c ≠ '+' := by
        rintro rfl
        exact absurd hDigit (by decide)
      have hMinus : c ≠ '-' := by
        rintro rfl
        exact absurd hDigit (by decide)
      constructor
      · rw [one_mul]
        unfold denoted
        split <;> simp_all
      · unfold read
        split <;> simp_all
  have hSigned : ∀ ds ∈ digits, ∃ c rest, ds = c :: rest := by
    rintro ds ⟨hNonempty, _⟩
    exact List.exists_cons_of_ne_nil hNonempty
  split at hText
  · next hIsSigned =>
    obtain ⟨mark, hMark, ds, hDigits, rfl⟩ := Language.mem_mul.mp hText
    obtain ⟨c, rest, rfl⟩ := hSigned ds hDigits
    rcases hMark with rfl | rfl | rfl
    · obtain ⟨hDenoted, hRead⟩ := hBare _ hDigits
      exact ⟨1, _, .inl rfl, hDigits, hDenoted, hRead, Iff.rfl⟩
    · refine ⟨1, _, .inl rfl, hDigits, (one_mul _).symm, rfl, ?_⟩
      exact isAscii_cons.trans (and_iff_right (by decide))
    · refine ⟨-1, _, .inr rfl, hDigits, (neg_one_mul _).symm, if_pos hIsSigned, ?_⟩
      exact isAscii_cons.trans (and_iff_right (by decide))
  · obtain ⟨hDenoted, hRead⟩ := hBare s hText
    exact ⟨1, s, .inl rfl, hText, hDenoted, hRead, Iff.rfl⟩

/-- **Of a text of digits, with a sign if the type has signs, the integer that it denotes is read**,
when it is written in ASCII and the type has that integer; otherwise the text is refused. -/
theorem read_eq_ok_iff {s : List Char}
    (hText : s ∈ (if t.isSigned then FieldKind.signed else .unsigned).language) {n : Int} :
    t.read s = .ok n ↔ IsAscii s ∧ t.Holds (denoted s) ∧ n = denoted s := by
  obtain ⟨sign, ds, hSign, ⟨_, hDigits⟩, hDenoted, hRead, hAscii⟩ := exists_digits hText
  have hStart : t.Holds (sign * (0 : Nat)) := by
    rw [Nat.cast_zero, mul_zero]
    exact ⟨t.least_le_zero, t.zero_le_greatest⟩
  have hZero : t.readDigits sign 0 ds = t.readDigits sign (sign * (0 : Nat)) ds := by
    rw [Nat.cast_zero, mul_zero]
  rw [hRead, hDenoted, hAscii]
  constructor
  · intro hOk
    have hPlain := ascii_of_readDigits hOk
    obtain ⟨hHolds, hRefused⟩ := readDigits_of_ascii hSign hDigits hPlain hStart
    rw [hZero] at hOk
    by_cases hIn : t.Holds (sign * magnitudeFrom 0 ds)
    · exact ⟨hPlain, hIn, Except.ok.inj (hOk.symm.trans (hHolds hIn))⟩
    · obtain ⟨e, hError⟩ := hRefused hIn
      exact absurd (hOk.symm.trans hError) (by simp)
  · rintro ⟨hPlain, hIn, rfl⟩
    rw [hZero]
    exact (readDigits_of_ascii hSign hDigits hPlain hStart).1 hIn

end IntType

end Number

end Scenarist
