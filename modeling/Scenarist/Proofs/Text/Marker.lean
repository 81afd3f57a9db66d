import Mathlib.Data.List.Infix
import Scenarist.Proofs.Text.Scan

/-!
# Occurrences of a word

* `infix_append_cons_iff`: across a character that it does not have a word does not occur.
* `append_cons_infix_iff`: a word occurs across the first of its marks or behind it.
* `Borderless.not_prefix`: in front of an occurrence of a word without borders, where it does not
  occur otherwise, it does not begin.
-/

namespace Scenarist.Text

variable {α : Type} {w u v : List α} {c : α}

/-- Across a character that it does not have a word does not occur. -/
theorem infix_append_cons_iff (hc : c ∉ w) : w <:+: u ++ c :: v ↔ w <:+: u ∨ w <:+: v := by
  constructor
  · intro h
    induction u with
    | nil =>
      rw [List.nil_append, List.infix_cons_iff] at h
      rcases h with h | h
      · cases w with
        | nil => exact .inl (List.nil_infix)
        | cons d w =>
          obtain rfl := (List.cons_prefix_cons.mp h).1
          exact absurd List.mem_cons_self hc
      · exact .inr h
    | cons d u ih =>
      rw [List.cons_append, List.infix_cons_iff] at h
      rcases h with h | h
      · -- A beginning that reaches the character would have it.
        by_cases hShort : w.length ≤ (d :: u).length
        · have hBegins : w <+: (d :: u) ++ c :: v := h
          exact .inl (List.prefix_of_prefix_length_le hBegins (List.prefix_append _ _)
            hShort).isInfix
        · have hReach : (d :: u) ++ [c] <+: w := by
            have hSnoc := List.prefix_append ((d :: u) ++ [c]) v
            rw [List.append_assoc, List.singleton_append] at hSnoc
            refine List.prefix_of_prefix_length_le hSnoc h ?_
            rw [List.length_append, List.length_singleton]
            omega
          have hMem : c ∈ (d :: u) ++ [c] := List.mem_append_right _ (List.mem_singleton.mpr rfl)
          exact absurd (hReach.subset hMem) hc
      · rcases ih h with h | h
        · exact .inl (h.trans (List.suffix_cons d u).isInfix)
        · exact .inr h
  · rintro (h | h)
    · exact h.trans (List.prefix_append u _).isInfix
    · exact h.trans ((List.suffix_cons c v).trans (List.suffix_append u _)).isInfix

/-- The first place of a character is one place. -/
theorem append_cons_inj_of_notMem [BEq α] [LawfulBEq α] {u' v' : List α} (hu : c ∉ u) (hu' : c ∉ u')
    (h : u ++ c :: v = u' ++ c :: v') : u = u' ∧ v = v' := by
  have hFirst : ∀ {u v : List α}, c ∉ u → (u ++ c :: v).takeWhile (· != c) = u := by
    intro u v hu
    refine takeWhile_append_of_stop (fun d hd => ?_) (fun d hd => ?_)
    · exact bne_iff_ne.mpr fun hEq => hu (hEq ▸ hd)
    · obtain rfl := Option.some.inj hd
      simp
  obtain rfl : u = u' := by rw [← hFirst hu, h, hFirst hu']
  exact ⟨rfl, (List.cons.inj (List.append_cancel_left h)).2⟩

/-- A word with a mark occurs in a text across the first mark of the text or behind it. -/
theorem append_cons_infix_iff [BEq α] [LawfulBEq α] {x y : List α} (hx : c ∉ x) (hu : c ∉ u) :
    x ++ c :: y <:+: u ++ c :: v ↔ (x <:+ u ∧ y <+: v) ∨ x ++ c :: y <:+: v := by
  constructor
  · rintro ⟨a, b, hEq⟩
    by_cases ha : c ∈ a
    · obtain ⟨a₁, a₂, rfl, ha₁⟩ := List.eq_append_cons_of_mem ha
      refine .inr ⟨a₂, b, ?_⟩
      refine (append_cons_inj_of_notMem ha₁ hu ?_).2
      rw [← hEq]
      simp only [List.append_assoc, List.cons_append]
    · have hBefore : c ∉ a ++ x := fun h => (List.mem_append.mp h).elim ha hx
      have hSplit : (a ++ x) ++ c :: (y ++ b) = u ++ c :: v := by
        rw [← hEq]
        simp only [List.append_assoc, List.cons_append]
      obtain ⟨rfl, rfl⟩ := append_cons_inj_of_notMem hBefore hu hSplit
      exact .inl ⟨List.suffix_append a x, List.prefix_append y b⟩
  · rintro (⟨⟨a, rfl⟩, ⟨b, rfl⟩⟩ | h)
    · exact ⟨a, b, by simp only [List.append_assoc, List.cons_append]⟩
    · exact h.trans ((List.suffix_cons c v).trans (List.suffix_append u _)).isInfix

/-- No end of the word but the whole word is a beginning of it. -/
def Borderless (w : List α) : Prop := ∀ k < w.length, 0 < k → ¬ w.drop k <+: w

instance [DecidableEq α] (w : List α) : Decidable (Borderless w) :=
  inferInstanceAs (Decidable (∀ k < w.length, 0 < k → ¬ w.drop k <+: w))

/-- A word without borders that does not occur in a text does not begin in it when the text is put
in front of the word: two of its occurrences do not overlap. -/
theorem Borderless.not_prefix (h : Borderless w) (hu : u ≠ []) (hNone : ¬ w <:+: u)
    (v : List α) : ¬ w <+: u ++ w ++ v := by
  intro hBegins
  rw [List.append_assoc] at hBegins
  by_cases hShort : w.length ≤ u.length
  · exact hNone (List.prefix_of_prefix_length_le hBegins (List.prefix_append u _) hShort).isInfix
  · have hFront : u <+: w :=
      List.prefix_of_prefix_length_le (List.prefix_append u _) hBegins (by omega)
    obtain ⟨x, rfl⟩ := hFront
    have hPositive : 0 < u.length := List.length_pos_iff.mpr hu
    rw [List.length_append] at hShort
    have hBack : x <+: (u ++ x) ++ v := (List.prefix_append_right_inj u).mp hBegins
    have hBorder : x <+: u ++ x := by
      refine List.prefix_of_prefix_length_le hBack (List.prefix_append _ _) ?_
      rw [List.length_append]
      omega
    refine h u.length ?_ hPositive ?_
    · rw [List.length_append]
      omega
    · rwa [List.drop_left]

end Scenarist.Text
