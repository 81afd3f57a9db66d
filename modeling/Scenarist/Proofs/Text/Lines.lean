import Mathlib.Data.List.Basic
import Scenarist.Proofs.Text.NormalForm
import Scenarist.Source.Line

/-!
# Lines and line ends

* `notMem_of_mem_lines`, `notMem_of_mem_linesOf`: no line has a line feed.
* `trim_line_concat`: blanks aside, a line feed at the end of a text changes no line.
-/

namespace Scenarist.Text

open Source

variable {s l : List Char}

/-! ### Line ends -/

theorem dropReturn_sublist (l : List Char) : (dropReturn l).Sublist l := by
  unfold dropReturn
  split
  · exact List.dropLast_sublist l
  · exact List.Sublist.refl l

theorem trim_sublist (l : List Char) : (trim l).Sublist l := by
  have hEnd : (trim l).Sublist (trimStart l) := by
    rw [← List.reverse_sublist, trim, trimEnd, List.reverse_reverse]
    exact List.dropWhile_sublist _
  exact hEnd.trans (List.dropWhile_sublist _)

theorem trimEnd_concat {c : Char} (h : isBlank c = true) (l : List Char) :
    trimEnd (l ++ [c]) = trimEnd l := by
  rw [trimEnd, List.reverse_append, List.reverse_singleton, List.singleton_append,
    List.dropWhile_cons_of_pos h, trimEnd]

theorem trimEnd_concat_of_not_blank {c : Char} (h : isBlank c = false) (l : List Char) :
    trimEnd (l ++ [c]) = l ++ [c] := by
  rw [trimEnd, List.reverse_append, List.reverse_singleton, List.singleton_append,
    List.dropWhile_cons_of_neg (by simp [h]), ← List.singleton_append, List.reverse_append,
    List.reverse_reverse, List.reverse_singleton]

/-- Only what stands behind the last character that is not blank is removed. -/
theorem trimEnd_append {l : List Char} (h : ∀ c ∈ l.getLast?, isBlank c = false)
    (s : List Char) : trimEnd (l ++ s) = l ++ trimEnd s := by
  induction s using List.reverseRecOn with
  | nil =>
    rcases List.eq_nil_or_concat' l with rfl | ⟨l, c, rfl⟩
    · rfl
    · have hLast : isBlank c = false := h c (by rw [List.getLast?_concat]; rfl)
      rw [List.append_nil, trimEnd_concat_of_not_blank hLast, trimEnd, List.reverse_nil,
        List.dropWhile_nil, List.reverse_nil, List.append_nil]
  | append_singleton s c ih =>
    rw [← List.append_assoc]
    by_cases hBlank : isBlank c = true
    · rw [trimEnd_concat hBlank, trimEnd_concat hBlank, ih]
    · rw [Bool.not_eq_true] at hBlank
      rw [trimEnd_concat_of_not_blank hBlank, trimEnd_concat_of_not_blank hBlank,
        List.append_assoc]

theorem trim_concat {c : Char} (h : isBlank c = true) (l : List Char) :
    trim (l ++ [c]) = trim l := by
  rw [trim, trimStart, List.dropWhile_append, List.dropWhile_cons_of_pos h, List.dropWhile_nil,
    trim, trimStart]
  split
  · next hNone => rw [List.isEmpty_iff.mp hNone]
  · exact trimEnd_concat h _

theorem trim_eq_nil_iff : trim s = [] ↔ ¬ HasContent s := by
  rw [HasContent, Bool.not_eq_false, allBlank, List.all_eq_true]
  constructor
  · intro h c hc
    rw [trim, trimEnd, List.reverse_eq_nil_iff, List.dropWhile_eq_nil_iff] at h
    rw [← indentation_append_trimStart s, List.mem_append] at hc
    rcases hc with hc | hc
    · exact blank_of_mem_indentation s c hc
    · exact h c (List.mem_reverse.mpr hc)
  · intro h
    have hStart : trimStart s = [] := List.dropWhile_eq_nil_iff.mpr h
    rw [trim, hStart]
    rfl

theorem trim_trimEnd (s : List Char) : trim (trimEnd s) = trim s := by
  induction s using List.reverseRecOn with
  | nil => rfl
  | append_singleton s c ih =>
    by_cases hBlank : isBlank c = true
    · rw [trimEnd_concat hBlank, trim_concat hBlank, ih]
    · rw [Bool.not_eq_true] at hBlank
      rw [trimEnd_concat_of_not_blank hBlank]

/-- Blanks aside, a return at the end of a line does not count. -/
theorem trim_dropReturn (l : List Char) : trim (dropReturn l) = trim l := by
  unfold dropReturn
  split
  · next hLast =>
    obtain ⟨front, rfl⟩ := List.getLast?_eq_some_iff.mp hLast
    rw [List.dropLast_concat, trim_concat (by decide)]
  · rfl

/-! ### Lines -/

theorem pieces_concat (s : List Char) : pieces (s ++ ['\n']) = pieces s ++ [[]] := by
  induction s with
  | nil => rfl
  | cons c s ih =>
    by_cases hc : c = '\n'
    · rw [List.cons_append, pieces, if_pos hc, ih, pieces, if_pos hc, List.cons_append]
    · obtain ⟨piece, more, hCons⟩ := List.exists_cons_of_ne_nil (pieces_ne_nil s)
      rw [hCons, List.cons_append] at ih
      rw [List.cons_append, pieces_cons hc ih, pieces_cons hc hCons, List.cons_append]

/-- The lines of a text, from its pieces. -/
theorem linesOf_eq {front : List (List Char)} {last : List Char} (h : pieces s = front ++ [last]) :
    linesOf s = front.map (fun l => dropReturn (dropReturn l)) ++
      if last.isEmpty then [] else [dropReturn last] := by
  rw [linesOf, lines, h, List.dropLast_concat, List.getLast?_concat, Option.getD_some,
    List.map_append, List.map_map]
  cases last <;> rfl

theorem exists_pieces_eq (s : List Char) : ∃ front last, pieces s = front ++ [last] :=
  ⟨_, _, (List.dropLast_concat_getLast (pieces_ne_nil s)).symm⟩

theorem notMem_of_mem_lines (h : l ∈ lines s) : '\n' ∉ l := by
  obtain ⟨front, last, hPieces⟩ := exists_pieces_eq s
  have hClean : ∀ piece ∈ front ++ [last], '\n' ∉ piece :=
    fun piece hPiece => notMem_of_mem_pieces (hPieces ▸ hPiece)
  rw [lines, hPieces, List.dropLast_concat, List.getLast?_concat, Option.getD_some,
    List.mem_append] at h
  rcases h with h | h
  · obtain ⟨piece, hPiece, rfl⟩ := List.mem_map.mp h
    exact fun hMem => hClean piece (List.mem_append_left _ hPiece)
      ((dropReturn_sublist piece).subset hMem)
  · split at h
    · cases h
    · obtain rfl := List.mem_singleton.mp h
      exact hClean l (List.mem_append_right _ List.mem_cons_self)

/-- No line has a line feed. -/
theorem notMem_of_mem_linesOf (h : l ∈ linesOf s) : '\n' ∉ l := by
  obtain ⟨line, hLine, rfl⟩ := List.mem_map.mp h
  exact fun hMem => notMem_of_mem_lines hLine ((dropReturn_sublist line).subset hMem)

theorem linesOf_concat {front : List (List Char)} {last : List Char}
    (h : pieces s = front ++ [last]) : linesOf (s ++ ['\n']) =
      front.map (fun l => dropReturn (dropReturn l)) ++ [dropReturn (dropReturn last)] := by
  have hMore : pieces (s ++ ['\n']) = (front ++ [last]) ++ [[]] := by rw [pieces_concat, h]
  rw [linesOf_eq hMore, List.map_append]
  exact List.append_nil _

/-- A line feed at the end of a text takes no line away. -/
theorem length_linesOf_le (s : List Char) :
    (linesOf s).length ≤ (linesOf (s ++ ['\n'])).length := by
  obtain ⟨front, last, hPieces⟩ := exists_pieces_eq s
  rw [linesOf_eq hPieces, linesOf_concat hPieces, List.length_append, List.length_append]
  split <;> simp

/-- **Blanks aside, a line feed at the end of a text changes no line.** -/
theorem trim_line_concat (s : List Char) (n : Nat) :
    trim (((linesOf (s ++ ['\n']))[n]?).getD []) = trim (((linesOf s)[n]?).getD []) := by
  obtain ⟨front, last, hPieces⟩ := exists_pieces_eq s
  rw [linesOf_eq hPieces, linesOf_concat hPieces]
  by_cases hFront : n < (front.map fun l => dropReturn (dropReturn l)).length
  · rw [List.getElem?_append_left hFront, List.getElem?_append_left hFront]
  · -- Only the last piece is a line in one way and not in the other, when it is empty.
    rw [List.getElem?_append_right (Nat.le_of_not_lt hFront),
      List.getElem?_append_right (Nat.le_of_not_lt hFront)]
    generalize n - (front.map fun l => dropReturn (dropReturn l)).length = k
    cases k with
    | zero =>
      rw [List.getElem?_cons_zero, Option.getD_some, trim_dropReturn, trim_dropReturn]
      split
      · next hEmpty => rw [List.isEmpty_iff.mp hEmpty]; rfl
      · rw [List.getElem?_cons_zero, Option.getD_some, trim_dropReturn]
    | succ k => split <;> rfl

end Scenarist.Text
