import Mathlib.Data.List.Forall2
import Scenarist.Proofs.Text.NormalForm

/-!
# What `dedent` does line by line

* `shared_iff_prefix_margin`: the blanks that all lines with content begin with are the beginnings
  of the margin.
* `dedent_by_lines`: every line with content loses the same blanks, as many as can be taken from all
  of them, and the other lines come out empty.
-/

namespace Scenarist.Text

variable {m p l : List Char} {ls : List (List Char)}

/-- Blanks that all lines with content begin with. -/
structure Shared (p : List Char) (ls : List (List Char)) : Prop where
  blank : ∀ c ∈ p, isBlank c = true
  begins : ∀ l ∈ ls, HasContent l → p <+: l

/-- What a line becomes without the margin `m`: it comes out empty exactly when it has no content,
and otherwise only the margin is missing. -/
structure LosesMargin (m l l' : List Char) : Prop where
  empty_iff : l' = [] ↔ ¬ HasContent l
  rest : HasContent l → l = m ++ l'

/-- Blanks at the beginning of a line are blanks of its indentation. -/
theorem prefix_indentation_iff (hp : ∀ c ∈ p, isBlank c = true) :
    p <+: indentation l ↔ p <+: l := by
  refine ⟨fun h => h.trans (List.takeWhile_prefix _), ?_⟩
  rintro ⟨t, rfl⟩
  rw [indentation_append_of_blank hp]
  exact List.prefix_append p _

/-- **The margin is the longest run of blanks that all lines with content begin with.** -/
theorem shared_iff_prefix_margin (h : ∃ l ∈ ls, HasContent l) : Shared p ls ↔ p <+: margin ls := by
  rw [prefix_margin_iff h]
  constructor
  · intro hShared l hl hContent
    exact (prefix_indentation_iff hShared.blank).mpr (hShared.begins l hl hContent)
  · intro hAll
    obtain ⟨l, hl, hContent⟩ := h
    have hBlank := blank_of_prefix_indentation (hAll l hl hContent)
    exact ⟨hBlank, fun k hk hHas => (prefix_indentation_iff hBlank).mp (hAll k hk hHas)⟩

theorem shared_margin (ls : List (List Char)) : Shared (margin ls) ls := by
  by_cases h : ∃ l ∈ ls, HasContent l
  · exact (shared_iff_prefix_margin h).mpr (List.prefix_refl _)
  · have hNone : ∀ l ∈ ls, ¬ HasContent l := fun l hl hContent => h ⟨l, hl, hContent⟩
    rw [margin_of_blank hNone]
    exact ⟨fun c hc => absurd hc List.not_mem_nil, fun l hl hHas => absurd hHas (hNone l hl)⟩

theorem losesMargin_bare (hl : l ∈ ls) : LosesMargin (margin ls) l (bare (margin ls) l) where
  empty_iff := by
    constructor
    · intro hEmpty hContent
      exact ((hasContent_bare hl).mpr hContent).ne_nil hEmpty
    · exact bare_of_not_hasContent
  rest hContent := by
    have hPrefix := (shared_margin ls).begins l hl hContent
    exact (append_bare hContent
      ((prefix_indentation_iff (shared_margin ls).blank).mpr hPrefix)).symm

/-- **`dedent` by lines.**  The result has as many lines as the text.  There are blanks `m` such
that every line with content is `m` followed by its line of the result, and exactly the lines
without content come out empty.  When some line has content, all blanks that such lines share are
beginnings of `m`, and the lines of the result share none; so `dedent` leaves the result as it is.
Blanks are compared as characters: a tab, a space and a wider space are three different ones. -/
theorem dedent_by_lines (s : List Char) :
    (∃ m, Shared m (pieces s) ∧ List.Forall₂ (LosesMargin m) (pieces s) (pieces (dedent s)) ∧
      ((∃ l ∈ pieces s, HasContent l) →
        (∀ p, Shared p (pieces s) → p <+: m) ∧ ∀ p, Shared p (pieces (dedent s)) → p = [])) ∧
    dedent (dedent s) = dedent s := by
  refine ⟨⟨margin (pieces s), shared_margin _, ?_, fun h => ⟨fun p => ?_, fun p hp => ?_⟩⟩,
    dedent_dedent s⟩
  · rw [pieces_dedent, List.forall₂_map_right_iff, List.forall₂_same]
    exact fun l hl => losesMargin_bare hl
  · exact (shared_iff_prefix_margin h).mp
  · rw [pieces_dedent] at hp
    have hMargin := (shared_iff_prefix_margin (exists_hasContent_bare h)).mp hp
    rw [margin_map_bare] at hMargin
    exact List.prefix_nil.mp hMargin

/-! A tab is no spaces, and a wider space is no plain one. -/

example : dedent "\ta\n    b".toList = "\ta\n    b".toList := by decide

example : dedent " \t\u2003a\n \t b\n  ".toList = "\u2003a\n b\n".toList := by decide

end Scenarist.Text
