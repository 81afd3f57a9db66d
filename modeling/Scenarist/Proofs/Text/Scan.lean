import Mathlib.Data.List.TakeWhile
import Mathlib.Data.List.Infix

/-!
# Scans over a text

What a scan takes for as long as a condition holds, and what it leaves.

* `takeWhile_append_of_stop`, `dropWhile_append_of_stop`: a scan ends where the text that it is to
  take ends, if what follows does not begin with more of it.
* `scan_append_of_found`, `scan_append_cons`: a scan that stops within a text, or at the character
  behind it, does not depend on what follows.
-/

namespace Scenarist.Text

variable {α : Type} {p : α → Bool} {s rest : List α}

theorem takeWhile_append_of_stop (hAll : ∀ c ∈ s, p c = true)
    (hStop : ∀ c ∈ rest.head?, p c = false) : (s ++ rest).takeWhile p = s := by
  rw [List.takeWhile_append_of_pos hAll]
  cases rest with
  | nil => exact List.append_nil s
  | cons c rest =>
    rw [List.takeWhile_cons_of_neg (Bool.eq_false_iff.mp (hStop c rfl)), List.append_nil]

theorem dropWhile_append_of_stop (hAll : ∀ c ∈ s, p c = true)
    (hStop : ∀ c ∈ rest.head?, p c = false) : (s ++ rest).dropWhile p = rest := by
  rw [List.dropWhile_append_of_pos hAll]
  cases rest with
  | nil => rfl
  | cons c rest => rw [List.dropWhile_cons_of_neg (Bool.eq_false_iff.mp (hStop c rfl))]

theorem scan_append_of_found {c : α} {after : List α} (h : s.dropWhile p = c :: after)
    (t : List α) :
    (s ++ t).takeWhile p = s.takeWhile p ∧ (s ++ t).dropWhile p = c :: (after ++ t) ∧
      after.length < s.length := by
  induction s with
  | nil => cases h
  | cons d s ih =>
    by_cases hd : p d = true
    · rw [List.dropWhile_cons_of_pos hd] at h
      obtain ⟨hTake, hDrop, hLength⟩ := ih h
      rw [List.cons_append, List.takeWhile_cons_of_pos hd, List.takeWhile_cons_of_pos hd,
        List.dropWhile_cons_of_pos hd, hTake]
      exact ⟨rfl, hDrop, Nat.lt_succ_of_lt hLength⟩
    · rw [List.dropWhile_cons_of_neg hd] at h
      obtain ⟨rfl, rfl⟩ := List.cons.inj h
      rw [List.cons_append, List.takeWhile_cons_of_neg hd, List.takeWhile_cons_of_neg hd,
        List.dropWhile_cons_of_neg hd]
      exact ⟨rfl, rfl, Nat.lt_succ_self _⟩

theorem scan_append_cons {c : α} (hc : p c = false) (s t : List α) :
    (s ++ c :: t).takeWhile p = s.takeWhile p ∧
      (s ++ c :: t).dropWhile p = s.dropWhile p ++ c :: t := by
  induction s with
  | nil =>
    exact ⟨List.takeWhile_cons_of_neg (Bool.eq_false_iff.mp hc),
      List.dropWhile_cons_of_neg (Bool.eq_false_iff.mp hc)⟩
  | cons d s ih =>
    by_cases hd : p d = true
    · rw [List.cons_append, List.takeWhile_cons_of_pos hd, List.takeWhile_cons_of_pos hd,
        List.dropWhile_cons_of_pos hd, List.dropWhile_cons_of_pos hd, ih.1, ih.2]
      exact ⟨rfl, rfl⟩
    · rw [List.cons_append, List.takeWhile_cons_of_neg hd, List.takeWhile_cons_of_neg hd,
        List.dropWhile_cons_of_neg hd, List.dropWhile_cons_of_neg hd]
      exact ⟨rfl, rfl⟩

end Scenarist.Text
