import Scenarist.Proofs.Format.Fragment
import Scenarist.Steps.Pattern

/-!
# Whole texts

Between the two ends of a text an expression matches exactly the texts that it can read in full, and
one without conditions and groups the texts of its language.

* `captures_anchored_iff`, `captures_anchored_isSome_iff`: the expression between the ends.
* `matchesInFull_fragment_iff`: a text matches the fragment of a kind in full when it is a text of
  the kind.
-/

namespace Scenarist

namespace Regex

/-- An expression between the two ends of the text. -/
def anchored (r : Regex) : Regex := sequence [.look .textStart, r, .look .textEnd]

theorem leads_anchored_iff {r : Regex} {h e : Hit} :
    Leads r.anchored h e ↔ h.spot.before = none ∧ Leads r h e ∧ e.spot.rest = [] := by
  constructor
  · rintro ⟨m, ⟨hStart, rfl⟩, m', hText, hEnd, rfl⟩
    exact ⟨Option.isNone_iff_eq_none.mp hStart, hText, List.isEmpty_iff.mp hEnd⟩
  · rintro ⟨hStart, hText, hEnd⟩
    exact ⟨h, ⟨Option.isNone_iff_eq_none.mpr hStart, rfl⟩, e, hText,
      List.isEmpty_iff.mpr hEnd, rfl⟩

/-- **Between the ends of a text an expression matches the texts that it can read in full.** -/
theorem captures_anchored_iff (r : Regex) (count : Nat) (text : List Char) :
    (r.anchored.captures count text).isSome = true ↔
      ∃ e, Leads r ⟨.ofText text, []⟩ e ∧ e.spot.rest = [] := by
  rw [captures_isSome_iff fun _ _ hLeads => (leads_anchored_iff.mp hLeads).1]
  constructor
  · rintro ⟨e, hLeads⟩
    exact ⟨e, (leads_anchored_iff.mp hLeads).2⟩
  · rintro ⟨e, hLeads⟩
    exact ⟨e, leads_anchored_iff.mpr ⟨rfl, hLeads⟩⟩

/-- An expression without conditions and groups matches the texts of its language. -/
theorem captures_anchored_isSome_iff {r : Regex} (hPlain : r.plain = true) (count : Nat)
    (text : List Char) : (r.anchored.captures count text).isSome = true ↔ text ∈ r.language := by
  rw [captures_anchored_iff]
  constructor
  · rintro ⟨e, hLeads, hEnd⟩
    obtain ⟨u, hu, hPrefix, rfl⟩ := (leads_iff_of_plain hPlain).mp hLeads
    have hDone : text.drop u.length = [] := hEnd
    have hAll : u = text := hPrefix.eq_of_length_le (List.drop_eq_nil_iff.mp hDone)
    exact hAll ▸ hu
  · intro hText
    exact ⟨_, (leads_iff_of_plain hPlain).mpr ⟨text, hText, List.prefix_refl _, rfl⟩,
      List.drop_length⟩

end Regex

/-- The written expression, put between the ends of the text, matches the text. -/
def MatchesInFull (source text : String) : Prop :=
  ∃ e, Expression.read (StepPattern.anchored source.toList) = .ok e ∧
    (e.captures text.toList).isSome = true

set_option maxRecDepth 4000 in
theorem read_anchored_fragment (k : FieldKind) :
    Expression.read (StepPattern.anchored k.fragment.toList) = .ok ⟨k.regex.anchored, []⟩ := by
  cases k <;> rfl

/-- **A text matches the fragment of a kind in full when it is a text of the kind.** -/
theorem matchesInFull_fragment_iff {k : FieldKind} {text : String} :
    MatchesInFull k.fragment text ↔ text.toList ∈ k.language := by
  unfold MatchesInFull
  rw [read_anchored_fragment, ← k.language_regex]
  constructor
  · rintro ⟨e, hRead, hSome⟩
    obtain rfl := Except.ok.inj hRead
    exact (Regex.captures_anchored_isSome_iff k.plain_regex _ _).mp hSome
  · intro hText
    exact ⟨_, rfl, (Regex.captures_anchored_isSome_iff k.plain_regex _ _).mpr hText⟩

end Scenarist
