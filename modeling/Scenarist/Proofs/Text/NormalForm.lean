import Mathlib.Data.List.Infix
import Mathlib.Data.List.TakeWhile
import Scenarist.Text.Backslash
import Scenarist.Text.Margin

/-!
# Normal forms of texts

* `pairBackslashes_pairBackslashes`: backslashes are paired once and for all.
* `prefix_margin_iff`: the margin is the longest run of blanks at the beginning of all lines with
  content.
* `dedent_dedent`: a margin is removed once and for all.
-/

namespace Scenarist.Text

/-! ### Backslashes -/

theorem pairBackslashes_cons {c : Char} (h : c ≠ '\\') (s : List Char) :
    pairBackslashes (c :: s) = c :: pairBackslashes s := by
  rw [pairBackslashes, if_neg h]
  rintro rest rfl
  exact fun _ => h rfl

theorem pairBackslashes_pairBackslashes (s : List Char) :
    pairBackslashes (pairBackslashes s) = pairBackslashes s := by
  fun_induction pairBackslashes s with
  | case1 => rfl
  | case2 rest ih => rw [pairBackslashes, ih]
  | case3 rest hSingle ih => rw [pairBackslashes, ih]
  | case4 c rest hPair hPlain ih => rw [pairBackslashes_cons hPlain, ih]

/-! ### Pieces -/

theorem pieces_cons {c : Char} (h : c ≠ '\n') {s piece : List Char} {more : List (List Char)}
    (hRest : pieces s = piece :: more) : pieces (c :: s) = (c :: piece) :: more := by
  rw [pieces, if_neg h, hRest]

/-- No piece has a line feed. -/
theorem notMem_of_mem_pieces {s piece : List Char} (h : piece ∈ pieces s) : '\n' ∉ piece := by
  induction s generalizing piece with
  | nil =>
    rw [List.mem_singleton.mp h]
    exact List.not_mem_nil
  | cons c s ih =>
    obtain ⟨first, more, hCons⟩ := List.exists_cons_of_ne_nil (pieces_ne_nil s)
    by_cases hc : c = '\n'
    · rw [pieces, if_pos hc] at h
      rcases List.mem_cons.mp h with rfl | h
      · exact List.not_mem_nil
      · exact ih h
    · rw [pieces_cons hc hCons] at h
      rcases List.mem_cons.mp h with rfl | h
      · rw [List.mem_cons]
        rintro (hEq | hMem)
        · exact hc hEq.symm
        · exact ih (hCons ▸ List.mem_cons_self) hMem
      · exact ih (hCons ▸ List.mem_cons_of_mem first h)

theorem pieces_of_notMem {piece : List Char} (h : '\n' ∉ piece) : pieces piece = [piece] := by
  induction piece with
  | nil => rfl
  | cons c piece ih =>
    rw [List.mem_cons, not_or] at h
    exact pieces_cons (Ne.symm h.1) (ih h.2)

theorem pieces_append_cons {piece : List Char} (h : '\n' ∉ piece) (s : List Char) :
    pieces (piece ++ '\n' :: s) = piece :: pieces s := by
  induction piece with
  | nil =>
    rw [List.nil_append, pieces, if_pos rfl]
  | cons c piece ih =>
    rw [List.mem_cons, not_or] at h
    exact pieces_cons (Ne.symm h.1) (ih h.2)

/-- Pieces that are joined and cut again are what they were. -/
theorem pieces_unpieces {ls : List (List Char)} (hNonempty : ls ≠ [])
    (h : ∀ l ∈ ls, '\n' ∉ l) : pieces (unpieces ls) = ls := by
  induction ls with
  | nil => exact absurd rfl hNonempty
  | cons l ls ih =>
    obtain ⟨hFirst, hRest⟩ := List.forall_mem_cons.mp h
    by_cases hLast : ls = []
    · subst hLast
      exact pieces_of_notMem hFirst
    · rw [unpieces_cons hLast, pieces_append_cons hFirst, ih hLast hRest]

/-! ### Margins -/

theorem prefix_commonStart_iff {p a b : List Char} :
    p <+: commonStart a b ↔ p <+: a ∧ p <+: b := by
  induction a generalizing p b with
  | nil =>
    show p <+: [] ↔ p <+: [] ∧ p <+: b
    refine ⟨fun h => ⟨h, ?_⟩, fun h => h.1⟩
    rw [List.prefix_nil.mp h]
    exact List.nil_prefix
  | cons x a ih =>
    cases b with
    | nil =>
      show p <+: [] ↔ p <+: x :: a ∧ p <+: []
      refine ⟨fun h => ⟨?_, h⟩, fun h => h.2⟩
      rw [List.prefix_nil.mp h]
      exact List.nil_prefix
    | cons y b =>
      cases p with
      | nil => exact iff_of_true List.nil_prefix ⟨List.nil_prefix, List.nil_prefix⟩
      | cons z p =>
        rw [commonStart]
        split
        · next hEq =>
          subst hEq
          simp only [List.cons_prefix_cons, ih]
          exact and_and_left
        · next hNe =>
          simp only [List.cons_prefix_cons, List.prefix_nil]
          refine iff_of_false (List.cons_ne_nil z p) ?_
          rintro ⟨⟨rfl, _⟩, ⟨rfl, _⟩⟩
          exact hNe rfl

theorem prefix_foldl_commonStart_iff {p first : List Char} {others : List (List Char)} :
    p <+: others.foldl commonStart first ↔ p <+: first ∧ ∀ l ∈ others, p <+: l := by
  induction others generalizing first with
  | nil => simp
  | cons l others ih =>
    rw [List.foldl_cons, ih, prefix_commonStart_iff, List.forall_mem_cons, and_assoc]

/-- A line that does not hold blanks only. -/
def HasContent (l : List Char) : Prop := allBlank l = false

instance (l : List Char) : Decidable (HasContent l) := inferInstanceAs (Decidable (_ = _))

theorem HasContent.ne_nil {l : List Char} (h : HasContent l) : l ≠ [] := by
  rintro rfl
  cases h

/-- **The margin is the longest run of blanks at the beginning of all lines with content.** -/
theorem prefix_margin_iff {p : List Char} {ls : List (List Char)} (h : ∃ l ∈ ls, HasContent l) :
    p <+: margin ls ↔ ∀ l ∈ ls, HasContent l → p <+: indentation l := by
  have hEach : (∀ l ∈ ls, HasContent l → p <+: indentation l) ↔
      ∀ i ∈ (ls.filter fun l => !allBlank l).map indentation, p <+: i := by
    simp only [List.mem_map, List.mem_filter, Bool.not_eq_true', HasContent]
    constructor
    · rintro hAll i ⟨l, ⟨hl, hContent⟩, rfl⟩
      exact hAll l hl hContent
    · exact fun hAll l hl hContent => hAll _ ⟨l, ⟨hl, hContent⟩, rfl⟩
  rw [hEach, margin]
  split
  · next hNil =>
    obtain ⟨l, hl, hContent⟩ := h
    have hMem : indentation l ∈ (ls.filter fun l => !allBlank l).map indentation :=
      List.mem_map_of_mem (List.mem_filter.mpr ⟨hl, by rw [hContent]; rfl⟩)
    rw [hNil] at hMem
    exact absurd hMem List.not_mem_nil
  · next first others hCons =>
    rw [hCons, prefix_foldl_commonStart_iff, List.forall_mem_cons]

/-- Without content there is no margin. -/
theorem margin_of_blank {ls : List (List Char)} (h : ∀ l ∈ ls, ¬ HasContent l) :
    margin ls = [] := by
  have hNone : (ls.filter fun l => !allBlank l) = [] := by
    refine List.filter_eq_nil_iff.mpr fun l hl => ?_
    have hBlank := h l hl
    simpa [HasContent] using hBlank
  rw [margin, hNone]
  rfl

/-! ### Lines without their margin -/

theorem indentation_append_of_blank {m : List Char} (hm : ∀ c ∈ m, isBlank c = true)
    (l : List Char) : indentation (m ++ l) = m ++ indentation l := List.takeWhile_append_of_pos hm

theorem hasContent_append_of_blank {m : List Char} (hm : ∀ c ∈ m, isBlank c = true)
    (l : List Char) : HasContent (m ++ l) ↔ HasContent l := by
  rw [HasContent, HasContent, allBlank, allBlank, List.all_append, List.all_eq_true.mpr hm,
    Bool.true_and]

theorem blank_of_prefix_indentation {m l : List Char} (h : m <+: indentation l) :
    ∀ c ∈ m, isBlank c = true := fun _ hc => List.mem_takeWhile_imp (h.subset hc)

theorem blank_of_mem_indentation (l : List Char) : ∀ c ∈ indentation l, isBlank c = true :=
  blank_of_prefix_indentation (List.prefix_refl _)

/-- Behind some of its blanks a line has the rest of its indentation. -/
theorem indentation_append {m l : List Char} (h : m <+: indentation (m ++ l)) :
    indentation (m ++ l) = m ++ indentation l :=
  indentation_append_of_blank (blank_of_prefix_indentation h) l

theorem hasContent_append {m l : List Char} (h : m <+: indentation (m ++ l)) :
    HasContent (m ++ l) ↔ HasContent l :=
  hasContent_append_of_blank (blank_of_prefix_indentation h) l

/-- A line without the margin; a line without content comes out empty. -/
def bare (m l : List Char) : List Char := if allBlank l then [] else cutMargin m l

theorem bare_of_not_hasContent {m l : List Char} (h : ¬ HasContent l) : bare m l = [] := by
  rw [HasContent, Bool.not_eq_false] at h
  exact if_pos h

theorem append_bare {m l : List Char} (hContent : HasContent l) (h : m <+: indentation l) :
    m ++ bare m l = l := by
  obtain ⟨t, ht⟩ := h.trans (List.takeWhile_prefix _)
  have hCut : bare m l = t := by
    rw [bare, if_neg (by rw [hContent]; decide), cutMargin, if_pos, ← ht, List.drop_left]
    rw [List.isPrefixOf_iff_prefix, ← ht]
    exact List.prefix_append m t
  rw [hCut, ht]

theorem bare_sublist (m l : List Char) : (bare m l).Sublist l := by
  unfold bare
  split
  · exact List.nil_sublist l
  · unfold cutMargin
    split
    · exact List.drop_sublist _ l
    · exact List.Sublist.refl l

variable {ls : List (List Char)}

/-- A line has content with the margin exactly when it has content without it. -/
theorem hasContent_bare {l : List Char} (hl : l ∈ ls) :
    HasContent (bare (margin ls) l) ↔ HasContent l := by
  by_cases hContent : HasContent l
  · have hMargin := (prefix_margin_iff ⟨l, hl, hContent⟩).mp (List.prefix_refl _) l hl hContent
    have hSplit := append_bare hContent hMargin
    rw [← hSplit] at hMargin
    have hIff := hasContent_append hMargin
    rwa [hSplit, iff_comm] at hIff
  · rw [bare_of_not_hasContent hContent]
    exact iff_of_false (by decide) hContent

theorem exists_hasContent_bare (h : ∃ l ∈ ls, HasContent l) :
    ∃ l ∈ ls.map (bare (margin ls)), HasContent l := by
  obtain ⟨l, hl, hContent⟩ := h
  exact ⟨_, List.mem_map_of_mem hl, (hasContent_bare hl).mpr hContent⟩

/-- **Lines without their margin have no margin.** -/
theorem margin_map_bare (ls : List (List Char)) : margin (ls.map (bare (margin ls))) = [] := by
  by_cases hContent : ∃ l ∈ ls, HasContent l
  · -- A margin of the bare lines would lengthen the margin of the lines.
    have hBare := exists_hasContent_bare hContent
    have hLonger : margin ls ++ margin (ls.map (bare (margin ls))) <+: margin ls := by
      refine (prefix_margin_iff hContent).mpr fun l hl hHas => ?_
      have hMargin := (prefix_margin_iff hContent).mp (List.prefix_refl _) l hl hHas
      have hRest := (prefix_margin_iff hBare).mp (List.prefix_refl _) _ (List.mem_map_of_mem hl)
        ((hasContent_bare hl).mpr hHas)
      have hSplit := append_bare hHas hMargin
      rw [← hSplit] at hMargin
      rw [← hSplit, indentation_append hMargin]
      exact (List.prefix_append_right_inj _).mpr hRest
    have hLength := hLonger.length_le
    rw [List.length_append] at hLength
    exact List.eq_nil_of_length_eq_zero (by omega)
  · refine margin_of_blank fun l hl hHas => ?_
    obtain ⟨l', hl', rfl⟩ := List.mem_map.mp hl
    exact hContent ⟨l', hl', (hasContent_bare hl').mp hHas⟩

theorem pieces_dedent (s : List Char) :
    pieces (dedent s) = (pieces s).map (bare (margin (pieces s))) := by
  show pieces (unpieces ((pieces s).map (bare (margin (pieces s))))) = _
  refine pieces_unpieces ?_ fun l hl => ?_
  · simpa using pieces_ne_nil s
  · obtain ⟨l', hl', rfl⟩ := List.mem_map.mp hl
    exact fun hMem => notMem_of_mem_pieces hl' ((bare_sublist _ l').subset hMem)

/-- **A margin is removed once and for all.** -/
theorem dedent_dedent (s : List Char) : dedent (dedent s) = dedent s := by
  have hDedent : ∀ s, dedent s = unpieces ((pieces s).map (bare (margin (pieces s)))) :=
    fun _ => rfl
  rw [hDedent (dedent s), pieces_dedent, margin_map_bare, hDedent s, List.map_map]
  congr 1
  refine List.map_congr_left fun l hl => ?_
  show bare [] (bare _ l) = bare _ l
  by_cases hContent : HasContent l
  · have hBare := (hasContent_bare hl).mpr hContent
    exact append_bare hBare List.nil_prefix
  · rw [bare_of_not_hasContent hContent]
    rfl

end Scenarist.Text
