import Scenarist.Number.FloatText
import Scenarist.Proofs.Format.Fragment
import Scenarist.Proofs.Text.Ascii
import Scenarist.Proofs.Text.Scan

/-!
# Texts of floating-point numbers

A text that looks like a floating-point number is read when it is written in ASCII: the reader knows
no digits of other scripts.

* `readDecimal_isSome`: digits of ASCII with a point, an exponent, both or neither are read.
* `ascii_of_readUnsigned`: what is read is written in ASCII.
* `exists_read_iff`: what these two say of the texts of the kind.
-/

namespace Scenarist

namespace Number

/-! ### Digits -/

theorem ascii_of_isAsciiDigit {c : Char} (h : isAsciiDigit c = true) : c.toNat < 128 := by
  have hLe : c ≤ '9' := by
    simp only [isAsciiDigit, Bool.and_eq_true, decide_eq_true_eq] at h
    exact h.2
  have hCode : c.toNat ≤ 57 := hLe
  omega

theorem isAscii_of_all_isAsciiDigit {s : List Char} (h : ∀ c ∈ s, isAsciiDigit c = true) :
    IsAscii s := fun c hc => ascii_of_isAsciiDigit (h c hc)

theorem isAsciiDigit_of_ascii {c : Char} (hDigit : Unicode.isDecimalDigit c = true)
    (hAscii : c.toNat < 128) : isAsciiDigit c = true := by
  have hEach := forall_ascii (fun c => Unicode.isDecimalDigit c = true → isAsciiDigit c = true)
    (by decide +kernel) hAscii
  exact hEach hDigit

/-- The digits of a text in ASCII. -/
theorem digits_of_ascii {s : List Char} (h : s ∈ digits) (hAscii : IsAscii s) :
    s ≠ [] ∧ ∀ c ∈ s, isAsciiDigit c = true :=
  ⟨h.1, fun c hc => isAsciiDigit_of_ascii (h.2 c hc) (hAscii c hc)⟩

/-! ### What is read -/

/-- A power of ten behind its mark is read. -/
theorem readPower_isSome {mark : Char} {sgn ds : List Char} (hMark : mark = 'e' ∨ mark = 'E')
    (hSign : sgn ∈ sign) (hNonempty : ds ≠ []) (hDigits : ∀ c ∈ ds, isAsciiDigit c = true) :
    (readPower (mark :: (sgn ++ ds))).isSome = true := by
  have hMarked : ¬ (mark ≠ 'e' ∧ mark ≠ 'E') := by
    rintro ⟨hLower, hUpper⟩
    exact hMark.elim hLower hUpper
  have hAll : (ds.isEmpty || !ds.all isAsciiDigit) = false := by
    rw [List.isEmpty_eq_false_iff.mpr hNonempty, List.all_eq_true.mpr hDigits]
    rfl
  unfold readPower
  simp only [if_neg hMarked]
  rcases hSign with rfl | rfl | rfl
  · rw [List.nil_append]
    split
    · next r => exact absurd (hDigits '+' List.mem_cons_self) (by decide)
    · next r => exact absurd (hDigits '-' List.mem_cons_self) (by decide)
    · simp [hAll]
  · simp [hAll]
  · simp [hAll]

/-- What may follow the digits of a number: nothing or a power of ten that can be read. -/
structure Tail (e : List Char) : Prop where
  noDigit : ∀ c ∈ e.head?, isAsciiDigit c = false
  noPoint : e.head? ≠ some '.'
  read : (readPower e).isSome = true

theorem Tail.of_mem {e : List Char} (h : e ∈ exponent + 1) (hAscii : IsAscii e) : Tail e := by
  rcases h with h | rfl
  · obtain ⟨marked, hMarked, ds, hDigits, rfl⟩ := Language.mem_mul.mp h
    obtain ⟨mark, hMark, sgn, hSign, rfl⟩ := Language.mem_mul.mp hMarked
    obtain ⟨hNonempty, hAll⟩ := digits_of_ascii hDigits (isAscii_append.mp hAscii).2
    rcases hMark with rfl | rfl
    · refine ⟨?_, by simp, ?_⟩
      · simp; decide
      · rw [List.append_assoc]
        show (readPower ('e' :: (sgn ++ ds))).isSome = true
        exact readPower_isSome (.inl rfl) hSign hNonempty hAll
    · refine ⟨?_, by simp, ?_⟩
      · simp; decide
      · rw [List.append_assoc]
        show (readPower ('E' :: (sgn ++ ds))).isSome = true
        exact readPower_isSome (.inr rfl) hSign hNonempty hAll
  · exact ⟨by simp, by simp, rfl⟩

/-- **Digits with a point, an exponent, both or neither are read.** -/
theorem readDecimal_isSome {m e : List Char} (hText : m ∈ mantissa) (hAscii : IsAscii m)
    (hTail : Tail e) : (readDecimal (m ++ e)).isSome = true := by
  have hPoint : ∀ {whole fraction : List Char}, (∀ c ∈ whole, isAsciiDigit c = true) →
      (∀ c ∈ fraction, isAsciiDigit c = true) → (whole ≠ [] ∨ fraction ≠ []) →
      (readDecimal (whole ++ '.' :: (fraction ++ e))).isSome = true := by
    intro whole fraction hWhole hFraction hSome
    have hStop : ∀ c ∈ ('.' :: (fraction ++ e)).head?, isAsciiDigit c = false := by
      simp; decide
    unfold readDecimal
    rw [Text.takeWhile_append_of_stop hWhole hStop, Text.dropWhile_append_of_stop hWhole hStop]
    simp only [Text.takeWhile_append_of_stop hFraction hTail.noDigit,
      Text.dropWhile_append_of_stop hFraction hTail.noDigit]
    split
    · next hNone =>
      simp only [Bool.and_eq_true, List.isEmpty_iff] at hNone
      exact hSome.elim (absurd hNone.1) (absurd hNone.2)
    · rw [Option.isSome_map]
      exact hTail.read
  rcases hText with (hText | hText) | hText
  · obtain ⟨front, hFront, back, hBack, rfl⟩ := Language.mem_mul.mp hText
    obtain ⟨whole, hWhole, point, rfl, rfl⟩ := Language.mem_mul.mp hFront
    obtain ⟨hFrontAscii, hBackAscii⟩ := isAscii_append.mp hAscii
    obtain ⟨hNonempty, hDigits⟩ := digits_of_ascii hWhole (isAscii_append.mp hFrontAscii).1
    have hFraction : ∀ c ∈ back, isAsciiDigit c = true := by
      rcases hBack with hBack | rfl
      · exact (digits_of_ascii hBack hBackAscii).2
      · simp
    have := hPoint hDigits hFraction (.inl hNonempty)
    simpa using this
  · obtain ⟨point, rfl, back, hBack, rfl⟩ := Language.mem_mul.mp hText
    obtain ⟨hNonempty, hDigits⟩ := digits_of_ascii hBack (isAscii_append.mp hAscii).2
    exact @hPoint [] back (by simp) hDigits (.inr hNonempty)
  · obtain ⟨hNonempty, hDigits⟩ := digits_of_ascii hText hAscii
    unfold readDecimal
    rw [Text.takeWhile_append_of_stop hDigits hTail.noDigit,
      Text.dropWhile_append_of_stop hDigits hTail.noDigit]
    have hNoPoint := hTail.noPoint
    have hRead := hTail.read
    dsimp only
    split
    · exact absurd rfl hNoPoint
    · rw [if_neg (by simp [hNonempty]), Option.isSome_map]
      exact hRead

/-! ### What is read is in ASCII -/

theorem ascii_of_readPower {e : List Char} (h : (readPower e).isSome = true) : IsAscii e := by
  fun_cases readPower e with
  | case1 => exact isAscii_nil
  | case2 mark rest hMark => exact absurd h (by simp [readPower, hMark])
  | case3 mark rest hMark sign digits hSplit hNone =>
    unfold readPower at h
    simp only [if_neg hMark, hSplit, if_pos hNone] at h
    exact absurd h (by simp)
  | case4 mark rest hMark sign digits hSplit hSome =>
    have hMarkAscii : mark.toNat < 128 := by
      by_cases hLower : mark = 'e'
      · rw [hLower]
        decide
      · by_cases hUpper : mark = 'E'
        · rw [hUpper]
          decide
        · exact absurd ⟨hLower, hUpper⟩ hMark
    have hDigits : IsAscii digits := by
      simp only [Bool.or_eq_true, Bool.not_eq_true', not_or, Bool.not_eq_false] at hSome
      exact isAscii_of_all_isAsciiDigit (List.all_eq_true.mp hSome.2)
    refine isAscii_cons.mpr ⟨hMarkAscii, ?_⟩
    split at hSplit
    · obtain rfl := (Prod.mk.inj hSplit).2
      exact isAscii_cons.mpr ⟨by decide, hDigits⟩
    · obtain rfl := (Prod.mk.inj hSplit).2
      exact isAscii_cons.mpr ⟨by decide, hDigits⟩
    · obtain rfl := (Prod.mk.inj hSplit).2
      exact hDigits

theorem isAscii_takeWhile (s : List Char) : IsAscii (s.takeWhile isAsciiDigit) :=
  isAscii_of_all_isAsciiDigit fun _ hc => List.mem_takeWhile_imp hc

theorem ascii_of_readDecimal {s : List Char} (h : (readDecimal s).isSome = true) : IsAscii s := by
  rw [← List.takeWhile_append_dropWhile (p := isAsciiDigit) (l := s)]
  refine isAscii_append.mpr ⟨isAscii_takeWhile s, ?_⟩
  unfold readDecimal at h
  dsimp only at h
  split at h
  · next r hRest =>
    rw [hRest]
    refine isAscii_cons.mpr ⟨by decide, ?_⟩
    rw [← List.takeWhile_append_dropWhile (p := isAsciiDigit) (l := r)]
    refine isAscii_append.mpr ⟨isAscii_takeWhile r, ?_⟩
    split at h
    · exact absurd h (by simp)
    · rw [Option.isSome_map] at h
      exact ascii_of_readPower h
  · split at h
    · exact absurd h (by simp)
    · rw [Option.isSome_map] at h
      exact ascii_of_readPower h

variable {f : BinaryFormat}

theorem ascii_of_readUnsigned {s : List Char} (h : (f.readUnsigned s).isSome = true) :
    IsAscii s := by
  unfold BinaryFormat.readUnsigned at h
  dsimp only at h
  split at h
  · next hWord =>
    rcases hWord with hWord | hWord
    · exact isAscii_of_map_toLower (by decide) hWord
    · exact isAscii_of_map_toLower (by decide) hWord
  · split at h
    · next hWord => exact isAscii_of_map_toLower (by decide) hWord
    · rw [Option.isSome_map] at h
      exact ascii_of_readDecimal h

/-! ### Texts of the kind -/

/-- A text does not begin with a sign. -/
def NoSign (s : List Char) : Prop := s.head? ≠ some '+' ∧ s.head? ≠ some '-'

/-- Whether a number is read does not depend on its sign. -/
theorem exists_read_append_iff {sgn u : List Char} (hSign : sgn ∈ sign) (hHead : NoSign u) :
    (∃ bits, f.read (sgn ++ u) = .ok bits) ↔ (f.readUnsigned u).isSome = true := by
  rcases hSign with rfl | rfl | rfl
  · rw [List.nil_append]
    unfold BinaryFormat.read
    split
    · exact absurd rfl hHead.1
    · exact absurd rfl hHead.2
    · cases f.readUnsigned u <;> simp
  · show (∃ bits, f.read ('+' :: u) = .ok bits) ↔ _
    rw [BinaryFormat.read]
    cases f.readUnsigned u <;> simp
  · show (∃ bits, f.read ('-' :: u) = .ok bits) ↔ _
    rw [BinaryFormat.read]
    cases f.readUnsigned u <;> simp

/-- Digits begin with a decimal digit, so not with a sign. -/
theorem noSign_of_digits {s : List Char} (h : s ∈ digits) (t : List Char) : NoSign (s ++ t) := by
  obtain ⟨hNonempty, hDigits⟩ := h
  cases s with
  | nil => exact absurd rfl hNonempty
  | cons c s =>
    have hDigit := hDigits c List.mem_cons_self
    constructor
    · intro hPlus
      obtain rfl := Option.some.inj hPlus
      exact absurd hDigit (by decide)
    · intro hMinus
      obtain rfl := Option.some.inj hMinus
      exact absurd hDigit (by decide)

theorem noSign_of_mantissa {m : List Char} (h : m ∈ mantissa) (t : List Char) :
    NoSign (m ++ t) := by
  rcases h with (h | h) | h
  · obtain ⟨front, hFront, back, _, rfl⟩ := Language.mem_mul.mp h
    obtain ⟨whole, hWhole, point, _, rfl⟩ := Language.mem_mul.mp hFront
    rw [List.append_assoc, List.append_assoc]
    exact noSign_of_digits hWhole _
  · obtain ⟨point, rfl, back, _, rfl⟩ := Language.mem_mul.mp h
    exact ⟨by simp, by simp⟩
  · exact noSign_of_digits h t

/-- The words for numbers that have no digits. -/
def wordsForNumbers : List (List Char) := ["nan".toList, "inf".toList, "infinity".toList]

/-- A word for a number does not begin with a sign, in any case, and is read in ASCII. -/
theorem noSign_and_read_of_anyCase {w s : List Char} (hWord : w ∈ wordsForNumbers)
    (h : s ∈ anyCase w) : NoSign s ∧ (IsAscii s → (f.readUnsigned s).isSome = true) := by
  have hEach : ∀ w ∈ wordsForNumbers, IsAscii w ∧
      w.head?.any (fun c => SameButCase c '+' ∨ SameButCase c '-') = false := by decide +kernel
  obtain ⟨hPlain, hHead⟩ := hEach w hWord
  have hBoth : List.Forall₂ SameButCase w s := h
  constructor
  · cases hBoth with
    | nil => exact absurd hWord (by decide)
    | cons hCase _ =>
      obtain ⟨hPlus, hMinus⟩ :=
        not_or.mp (of_decide_eq_false ((Option.any_eq_false _ _).mp hHead _ rfl))
      constructor
      · intro hEq
        obtain rfl := Option.some.inj hEq
        exact hPlus hCase
      · intro hEq
        obtain rfl := Option.some.inj hEq
        exact hMinus hCase
  · intro hAscii
    have hLower := map_toLower_of_anyCase hPlain hAscii h
    simp only [wordsForNumbers, List.mem_cons, List.not_mem_nil, or_false] at hWord
    rcases hWord with rfl | rfl | rfl
    · rw [BinaryFormat.readUnsigned, hLower]
      rfl
    · rw [BinaryFormat.readUnsigned, hLower]
      rfl
    · rw [BinaryFormat.readUnsigned, hLower]
      rfl

/-- The number behind the sign of a text is read when it is written in ASCII. -/
theorem exists_unsigned {s : List Char} (hText : s ∈ FieldKind.float.language) :
    ∃ sgn u, s = sgn ++ u ∧ sgn ∈ sign ∧ NoSign u ∧
      (IsAscii u → (f.readUnsigned u).isSome = true) := by
  have hNone : [] ∈ sign := .inl rfl
  rcases hText with ((hText | hText) | hText) | hText
  · obtain ⟨signed, hSigned, e, hPower, rfl⟩ := Language.mem_mul.mp hText
    obtain ⟨sgn, hSign, m, hMantissa, rfl⟩ := Language.mem_mul.mp hSigned
    refine ⟨sgn, m ++ e, List.append_assoc _ _ _, hSign, noSign_of_mantissa hMantissa e, ?_⟩
    intro hAscii
    obtain ⟨hFront, hBack⟩ := isAscii_append.mp hAscii
    have hDecimal := readDecimal_isSome hMantissa hFront (.of_mem hPower hBack)
    unfold BinaryFormat.readUnsigned
    dsimp only
    split
    · rfl
    · split
      · rfl
      · rwa [Option.isSome_map]
  · exact ⟨[], s, rfl, hNone, noSign_and_read_of_anyCase (by decide) hText⟩
  · exact ⟨[], s, rfl, hNone, noSign_and_read_of_anyCase (by decide) hText⟩
  · exact ⟨[], s, rfl, hNone, noSign_and_read_of_anyCase (by decide) hText⟩

/-- **A text that looks like a floating-point number is read exactly when it is written in ASCII.** -/
theorem exists_read_iff {s : List Char} (hText : s ∈ FieldKind.float.language) :
    (∃ bits, f.read s = .ok bits) ↔ IsAscii s := by
  obtain ⟨sgn, u, rfl, hSign, hHead, hRead⟩ := exists_unsigned (f := f) hText
  have hSignAscii : IsAscii sgn := by
    rcases hSign with rfl | rfl | rfl <;> decide
  rw [exists_read_append_iff hSign hHead, isAscii_append, and_iff_right hSignAscii]
  exact ⟨ascii_of_readUnsigned, hRead⟩

end Number

end Scenarist
