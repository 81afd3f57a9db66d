import Mathlib.Data.List.Forall2
import Scenarist.Proofs.Text.Lines
import Scenarist.Proofs.Text.NormalForm

/-!
# Lines with part of their margin removed

* `margin_outdented`: when blanks are removed in front of all lines with content, what is left of
  the margin is the rest of it.
* `dedent_outdented`: so it does not matter whether they were removed before the whole margin is.
* `outdent_unpieces`: `outdent` removes the same blanks in front of all lines with content.
-/

namespace Scenarist.Text

/-! ### Lines and margins -/

/-- The second line is what is left of the first one without the blanks `m`. A line without content
may become any other one. -/
inductive Outdented (m : List Char) : List Char → List Char → Prop
  | content {l : List Char} (content : HasContent l) : Outdented m (m ++ l) l
  | blank {l l' : List Char} (blank : ¬ HasContent l) (blank' : ¬ HasContent l')
      (line : '\n' ∉ l') : Outdented m l l'

variable {m p l l' : List Char} {ls ls' : List (List Char)}

theorem Outdented.hasContent_iff (hm : ∀ c ∈ m, isBlank c = true) (h : Outdented m l l') :
    HasContent l ↔ HasContent l' := by
  cases h with
  | content hContent => exact hasContent_append_of_blank hm l'
  | blank hBlank hBlank' hLine => exact iff_of_false hBlank hBlank'

theorem Outdented.notMem (h : Outdented m l l') (hl : '\n' ∉ l) : '\n' ∉ l' := by
  cases h with
  | content hContent => exact fun hMem => hl (List.mem_append_right m hMem)
  | blank hBlank hBlank' hLine => exact hLine

theorem notMem_of_forall₂ (h : List.Forall₂ (Outdented m) ls ls') (hls : ∀ l ∈ ls, '\n' ∉ l) :
    ∀ l ∈ ls', '\n' ∉ l := by
  induction h with
  | nil => exact fun l hl => absurd hl List.not_mem_nil
  | cons hFirst _ ih =>
    obtain ⟨hl, hls⟩ := List.forall_mem_cons.mp hls
    exact List.forall_mem_cons.mpr ⟨hFirst.notMem hl, ih hls⟩

theorem exists_hasContent_iff (hm : ∀ c ∈ m, isBlank c = true)
    (h : List.Forall₂ (Outdented m) ls ls') :
    (∃ l ∈ ls, HasContent l) ↔ ∃ l ∈ ls', HasContent l := by
  induction h with
  | nil => exact Iff.rfl
  | cons hFirst _ ih =>
    simp only [List.mem_cons, exists_eq_or_imp, hFirst.hasContent_iff hm, ih]

/-- What all lines with content begin with, with the blanks and without them. -/
theorem forall_prefix_iff (hm : ∀ c ∈ m, isBlank c = true)
    (h : List.Forall₂ (Outdented m) ls ls') (p : List Char) :
    (∀ l ∈ ls, HasContent l → m ++ p <+: indentation l) ↔
      ∀ l ∈ ls', HasContent l → p <+: indentation l := by
  induction h with
  | nil => simp
  | cons hFirst _ ih =>
    rw [List.forall_mem_cons, List.forall_mem_cons, ih]
    refine and_congr ?_ Iff.rfl
    cases hFirst with
    | content hContent =>
      rw [hasContent_append_of_blank hm, indentation_append_of_blank hm,
        List.prefix_append_right_inj]
    | blank hBlank hBlank' hLine => simp [hBlank, hBlank']

/-- **What is left of the margin is the rest of it.** -/
theorem margin_outdented (hm : ∀ c ∈ m, isBlank c = true)
    (h : List.Forall₂ (Outdented m) ls ls') (hContent : ∃ l ∈ ls', HasContent l) :
    margin ls = m ++ margin ls' := by
  have hBefore := (exists_hasContent_iff hm h).mpr hContent
  have hIff : ∀ p, m ++ p <+: margin ls ↔ p <+: margin ls' := by
    intro p
    rw [prefix_margin_iff hBefore, prefix_margin_iff hContent]
    exact forall_prefix_iff hm h p
  have hLonger : m ++ margin ls' <+: margin ls := (hIff _).mpr (List.prefix_refl _)
  obtain ⟨q, hq⟩ := (List.prefix_append m (margin ls')).trans hLonger
  have hShorter : q <+: margin ls' := (hIff q).mp (by rw [hq])
  refine (hLonger.eq_of_length_le ?_).symm
  rw [← hq, List.length_append, List.length_append]
  exact Nat.add_le_add_left hShorter.length_le _

/-- A line loses the same, whether at once or in two steps. -/
theorem Outdented.bare_eq (hm : ∀ c ∈ m, isBlank c = true) (h : Outdented m l l')
    (hp : HasContent l' → p <+: indentation l') : bare (m ++ p) l = bare p l' := by
  cases h with
  | content hContent =>
    have hPrefix := hp hContent
    have hAll : m ++ p <+: indentation (m ++ l') := by
      rw [indentation_append_of_blank hm]
      exact (List.prefix_append_right_inj m).mpr hPrefix
    have hBoth := append_bare ((hasContent_append_of_blank hm l').mpr hContent) hAll
    rw [List.append_assoc, List.append_cancel_left_eq] at hBoth
    exact List.append_cancel_left (hBoth.trans (append_bare hContent hPrefix).symm)
  | blank hBlank hBlank' hLine => rw [bare_of_not_hasContent hBlank, bare_of_not_hasContent hBlank']

theorem map_bare_outdented (hm : ∀ c ∈ m, isBlank c = true)
    (h : List.Forall₂ (Outdented m) ls ls') :
    ls.map (bare (margin ls)) = ls'.map (bare (margin ls')) := by
  have hEach : ∀ p, (∀ l ∈ ls', HasContent l → p <+: indentation l) →
      ls.map (bare (m ++ p)) = ls'.map (bare p) := by
    intro p hp
    induction h with
    | nil => rfl
    | cons hFirst _ ih =>
      obtain ⟨hl, hls⟩ := List.forall_mem_cons.mp hp
      rw [List.map_cons, List.map_cons, hFirst.bare_eq hm hl, ih hls]
  by_cases hContent : ∃ l ∈ ls', HasContent l
  · rw [margin_outdented hm h hContent]
    exact hEach _ ((prefix_margin_iff hContent).mp (List.prefix_refl _))
  · -- Without content every line comes out empty, whatever the margin.
    have hNone : ∀ l ∈ ls', ¬ HasContent l := fun l hl hHas => hContent ⟨l, hl, hHas⟩
    have hNone' : ∀ l ∈ ls, ¬ HasContent l := fun l hl hHas =>
      hContent ((exists_hasContent_iff hm h).mp ⟨l, hl, hHas⟩)
    rw [List.map_congr_left fun l hl => bare_of_not_hasContent (hNone l hl),
      List.map_congr_left fun l hl => bare_of_not_hasContent (hNone' l hl),
      List.map_const', List.map_const', h.length_eq]

/-! ### Removing the margin -/

theorem dedent_unpieces (h : ∀ l ∈ ls, '\n' ∉ l) :
    dedent (unpieces ls) = unpieces (ls.map (bare (margin ls))) := by
  by_cases hNil : ls = []
  · subst hNil
    rfl
  · have hPieces := pieces_unpieces hNil h
    show unpieces ((pieces (unpieces ls)).map (bare (margin (pieces (unpieces ls))))) = _
    rw [hPieces]

/-- **Blanks that are removed in front of all lines do not count when the margin is removed.** -/
theorem dedent_outdented (hm : ∀ c ∈ m, isBlank c = true) (hls : ∀ l ∈ ls, '\n' ∉ l)
    (h : List.Forall₂ (Outdented m) ls ls') : dedent (unpieces ls') = dedent (unpieces ls) := by
  rw [dedent_unpieces hls, dedent_unpieces (notMem_of_forall₂ h hls), map_bare_outdented hm h]

/-- One line with content more makes another text. -/
theorem dedent_cons_ne (hContent : HasContent l) (h : ∀ k ∈ l :: ls, '\n' ∉ k) :
    dedent (unpieces (l :: ls)) ≠ dedent (unpieces ls) := by
  intro hEq
  have hPieces := congrArg pieces hEq
  rw [pieces_dedent, pieces_dedent, pieces_unpieces (List.cons_ne_nil l ls) h] at hPieces
  by_cases hNil : ls = []
  · subst hNil
    have hFirst := (hasContent_bare (List.mem_singleton_self l)).mpr hContent
    exact hFirst.ne_nil (List.cons.inj hPieces).1
  · rw [pieces_unpieces hNil (List.forall_mem_cons.mp h).2] at hPieces
    have hLength := congrArg List.length hPieces
    simp at hLength

/-! ### The loose margin -/

theorem commonStart_prefix_left (a b : List Char) : commonStart a b <+: a :=
  (prefix_commonStart_iff.mp (List.prefix_refl _)).1

theorem commonStart_prefix_right (a b : List Char) : commonStart a b <+: b :=
  (prefix_commonStart_iff.mp (List.prefix_refl _)).2

theorem narrow_prefix_left (m l : List Char) : narrow m l <+: m := by
  unfold narrow
  simp only
  split
  · exact commonStart_prefix_left m l
  · exact List.prefix_refl m

/-- A line with content ends behind the blanks that it shares with others. -/
theorem narrow_prefix_of_hasContent (hm : ∀ c ∈ m, isBlank c = true) (h : HasContent l) :
    narrow m l <+: l := by
  have hShorter : (commonStart m l).length < l.length := by
    have hPrefix := commonStart_prefix_right m l
    refine Nat.lt_of_le_of_ne hPrefix.length_le fun hLength => ?_
    have hEq := hPrefix.eq_of_length hLength
    have hBlank : allBlank l = true := List.all_eq_true.mpr fun c hc =>
      hm c ((commonStart_prefix_left m l).subset (by rwa [hEq]))
    rw [h] at hBlank
    cases hBlank
  unfold narrow
  simp only [if_pos hShorter]
  exact commonStart_prefix_right m l

theorem foldl_narrow_prefix_left (ls : List (List Char)) (m : List Char) :
    ls.foldl narrow m <+: m := by
  induction ls generalizing m with
  | nil => exact List.prefix_refl m
  | cons l ls ih => exact (ih (narrow m l)).trans (narrow_prefix_left m l)

theorem foldl_narrow_prefix_of_mem (hm : ∀ c ∈ m, isBlank c = true) (hl : l ∈ ls)
    (h : HasContent l) : ls.foldl narrow m <+: l := by
  induction ls generalizing m with
  | nil => exact absurd hl List.not_mem_nil
  | cons k ls ih =>
    rcases List.mem_cons.mp hl with rfl | hl
    · exact (foldl_narrow_prefix_left ls _).trans (narrow_prefix_of_hasContent hm h)
    · exact ih (fun c hc => hm c ((narrow_prefix_left m k).subset hc)) hl

theorem blank_of_mem_looseMargin (ls : List (List Char)) :
    ∀ c ∈ looseMargin ls, isBlank c = true := by
  induction ls with
  | nil => exact fun c hc => absurd hc List.not_mem_nil
  | cons l ls ih =>
    rw [looseMargin]
    split
    · exact ih
    · exact fun c hc =>
        blank_of_mem_indentation l c ((foldl_narrow_prefix_left ls _).subset hc)

theorem looseMargin_prefix_of_mem (hl : l ∈ ls) (h : HasContent l) : looseMargin ls <+: l := by
  induction ls with
  | nil => exact absurd hl List.not_mem_nil
  | cons k ls ih =>
    rw [looseMargin]
    rcases List.mem_cons.mp hl with rfl | hl
    · rw [if_neg (by rw [h]; decide)]
      exact (foldl_narrow_prefix_left ls _).trans (List.takeWhile_prefix _)
    · split
      · exact ih hl
      · exact foldl_narrow_prefix_of_mem (blank_of_mem_indentation k) hl h

/-- What `outdent` makes of a line. -/
def strip (m l : List Char) : List Char :=
  if m.isPrefixOf l && !allBlank l then l.drop m.length else []

theorem strip_of_not_hasContent (h : ¬ HasContent l) : strip m l = [] := by
  rw [HasContent, Bool.not_eq_false] at h
  rw [strip, h, Bool.not_true, Bool.and_false]
  rfl

theorem outdented_strip (hm : ∀ c ∈ m, isBlank c = true) (h : HasContent l → m <+: l) :
    Outdented m l (strip m l) := by
  by_cases hContent : HasContent l
  · obtain ⟨t, rfl⟩ := h hContent
    have hStrip : strip m (m ++ t) = t := by
      rw [strip, List.isPrefixOf_iff_prefix.mpr (List.prefix_append m t), hContent]
      exact List.drop_left
    rw [hStrip]
    exact .content ((hasContent_append_of_blank hm t).mp hContent)
  · rw [strip_of_not_hasContent hContent]
    exact .blank hContent (by decide) List.not_mem_nil

/-! ### Outdenting -/

theorem unpieces_concat (ls : List (List Char)) (last : List Char) :
    unpieces (ls ++ [last]) = ls.flatMap (· ++ ['\n']) ++ last := by
  induction ls with
  | nil => rfl
  | cons l ls ih =>
    rw [List.cons_append, unpieces_cons (by simp), ih, List.flatMap_cons]
    simp

theorem dropReturn_eq_self (h : l.getLast? ≠ some '\r') : dropReturn l = l := if_neg h

/-- The lines of a text, from its pieces: an empty last piece is no line. -/
theorem lines_unpieces {last : List Char} (h : ∀ l ∈ ls ++ [last], '\n' ∉ l)
    (hReturn : ∀ l ∈ ls, l.getLast? ≠ some '\r') :
    lines (unpieces (ls ++ [last])) = ls ++ if last.isEmpty then [] else [last] := by
  have hSame : ls.map dropReturn = ls :=
    (List.map_congr_left fun l hl => dropReturn_eq_self (hReturn l hl)).trans (List.map_id' ls)
  rw [lines, pieces_unpieces (by simp) h, List.dropLast_concat, List.getLast?_concat,
    Option.getD_some, hSame]

/-- **`outdent` removes the same blanks in front of all lines with content** and empties the
others. -/
theorem outdent_unpieces {last : List Char} (h : ∀ l ∈ ls ++ [last], '\n' ∉ l) (hNil : ls ≠ [])
    (hReturn : ∀ l ∈ ls, l.getLast? ≠ some '\r') (hLast : ¬ HasContent last) :
    ∃ m, (∀ c ∈ m, isBlank c = true) ∧ (∀ l ∈ ls, Outdented m l (strip m l)) ∧
      outdent (unpieces (ls ++ [last])) = unpieces (ls.map (strip m) ++ [[]]) := by
  have hLines := lines_unpieces h hReturn
  have hText := unpieces_concat ls last
  generalize unpieces (ls ++ [last]) = s at hLines hText ⊢
  refine ⟨looseMargin (lines s), blank_of_mem_looseMargin _, fun l hl => ?_, ?_⟩
  · refine outdented_strip (blank_of_mem_looseMargin _) (looseMargin_prefix_of_mem ?_)
    rw [hLines]
    exact List.mem_append_left _ hl
  · have hOutdent : outdent s =
        if s.getLast? = some '\n' then
          (lines s).flatMap fun l => strip (looseMargin (lines s)) l ++ ['\n']
        else ((lines s).flatMap fun l => strip (looseMargin (lines s)) l ++ ['\n']).dropLast := rfl
    rw [hOutdent]
    generalize looseMargin (lines s) = m
    rw [hLines, unpieces_concat, List.append_nil, List.flatMap_map]
    by_cases hEmpty : last = []
    · subst hEmpty
      have hEnd : s.getLast? = some '\n' := by
        obtain ⟨front, l, rfl⟩ := (List.eq_nil_or_concat' _).resolve_left hNil
        simp [hText]
      rw [if_pos hEnd]
      simp
    · -- the blank last line comes out empty, and its line feed is taken back
      obtain ⟨front, c, rfl⟩ := (List.eq_nil_or_concat' _).resolve_left hEmpty
      have hEnd : s.getLast? ≠ some '\n' := by
        have hc := h (front ++ [c]) (by simp)
        simp at hc
        simp [hText, Ne.symm hc.2]
      rw [if_neg hEnd]
      simp [strip_of_not_hasContent hLast]

end Scenarist.Text
