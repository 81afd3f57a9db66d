import Mathlib.Data.List.Basic
import Scenarist.Text.Blank

/-!
# Blank ends

* `forall_blank`: the blank characters are few, and what holds of each holds of all of them.
* `trimmed_trim`: a trimmed text neither begins nor ends with a blank.
* `Trimmed.trim_eq`: such a text stays as it is.
-/

namespace Scenarist.Text

/-! ### Blank characters -/

/-- The code points of the blank characters. -/
def blankCodes : List Nat :=
  [9, 10, 11, 12, 13, 0x20, 0x85, 0xA0, 0x1680, 0x2000, 0x2001, 0x2002, 0x2003, 0x2004, 0x2005,
    0x2006, 0x2007, 0x2008, 0x2009, 0x200A, 0x2028, 0x2029, 0x202F, 0x205F, 0x3000]

theorem mem_blankCodes {c : Char} (h : isBlank c = true) : c.toNat ∈ blankCodes := by
  simp only [isBlank, Bool.or_eq_true, Bool.and_eq_true, decide_eq_true_eq, beq_iff_eq] at h
  simp only [blankCodes, List.mem_cons, List.not_mem_nil, or_false]
  omega

/-- What holds of the blank characters, one by one, holds of all of them. -/
theorem forall_blank (P : Char → Prop) (h : ∀ n ∈ blankCodes, P (Char.ofNat n)) {c : Char}
    (hBlank : isBlank c = true) : P c := by
  have hThis := h c.toNat (mem_blankCodes hBlank)
  rwa [Char.ofNat_toNat] at hThis

/-! ### Trimming -/

/-- A text neither begins nor ends with a blank. -/
structure Trimmed (s : List Char) : Prop where
  head : ∀ c ∈ s.head?, isBlank c = false
  last : ∀ c ∈ s.getLast?, isBlank c = false

theorem Trimmed.of_forall {s : List Char} (h : ∀ c ∈ s, isBlank c = false) : Trimmed s :=
  ⟨fun c hc => h c (List.mem_of_mem_head? hc), fun c hc => h c (List.mem_of_getLast? hc)⟩

theorem dropWhile_isBlank_eq_self {s : List Char} (h : ∀ c ∈ s.head?, isBlank c = false) :
    s.dropWhile isBlank = s := by
  cases s with
  | nil => rfl
  | cons c s => rw [List.dropWhile_cons_of_neg (by simp [h c rfl])]

theorem Trimmed.trim_eq {s : List Char} (h : Trimmed s) : trim s = s := by
  have hEnd : ∀ c ∈ s.reverse.head?, isBlank c = false := by
    rw [List.head?_reverse]
    exact h.last
  rw [trim, trimStart, dropWhile_isBlank_eq_self h.head, trimEnd, dropWhile_isBlank_eq_self hEnd,
    List.reverse_reverse]

/-- **A trimmed text neither begins nor ends with a blank.** -/
theorem trimmed_trim (s : List Char) : Trimmed (trim s) := by
  have hStop : ∀ t : List Char, ∀ c ∈ (t.dropWhile isBlank).head?, isBlank c = false := by
    intro t c hc
    have hNot := List.head?_dropWhile_not isBlank t
    rw [Option.mem_def.mp hc] at hNot
    simpa using hNot
  constructor
  · -- What is left in front of the blanks at the end begins as the text did.
    intro c hc
    have hPrefix : trim s <+: trimStart s := by
      rw [← List.reverse_suffix, trim, trimEnd, List.reverse_reverse]
      exact List.dropWhile_suffix _
    obtain ⟨t, ht⟩ := hPrefix
    refine hStop s c ?_
    change c ∈ (trimStart s).head?
    rw [← ht, List.head?_append, Option.mem_def.mp hc]
    rfl
  · intro c hc
    refine hStop (trimStart s).reverse c ?_
    rwa [trim, trimEnd, List.getLast?_reverse] at hc

theorem trim_trim (s : List Char) : trim (trim s) = trim s := (trimmed_trim s).trim_eq

end Scenarist.Text
