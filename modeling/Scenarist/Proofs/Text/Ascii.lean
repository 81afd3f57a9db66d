import Scenarist.Proofs.Format.Fragment

/-!
# Texts in ASCII

What the tables of all characters say of the characters of ASCII is checked one by one.

* `map_toLower_of_anyCase`: among the characters of ASCII two texts that differ at most in case have
  the same lower case.
-/

namespace Scenarist

/-- Whether all characters of a text are of ASCII. -/
def IsAscii (s : List Char) : Prop := ∀ c ∈ s, c.toNat < 128

instance (s : List Char) : Decidable (IsAscii s) := List.decidableBAll _ s

/-- What holds of the characters of ASCII, one by one, holds of all of them. -/
theorem forall_ascii (P : Char → Prop) (h : ∀ n < 128, P (Char.ofNat n)) {c : Char}
    (hc : c.toNat < 128) : P c := by
  have hThis := h c.toNat hc
  rwa [Char.ofNat_toNat] at hThis

theorem isAscii_nil : IsAscii [] := fun _ h => absurd h List.not_mem_nil

theorem isAscii_cons {c : Char} {s : List Char} :
    IsAscii (c :: s) ↔ c.toNat < 128 ∧ IsAscii s := List.forall_mem_cons

theorem isAscii_append {s t : List Char} : IsAscii (s ++ t) ↔ IsAscii s ∧ IsAscii t :=
  List.forall_mem_append

namespace Unicode

/-- The runs that begin within ASCII. -/
def asciiPairRuns : List (Nat × Nat × Nat × Nat) := casePairRuns.takeWhile (·.1 < 128)

/-- The other runs pair a character of ASCII with none. -/
theorem flatMap_pairedBy_of_ascii {n : Nat} (h : n < 128) :
    casePairRuns.flatMap (pairedBy n) = asciiPairRuns.flatMap (pairedBy n) := by
  have hBeyond : ∀ run ∈ casePairRuns.dropWhile (·.1 < 128), 128 ≤ run.1 := by
    decide +kernel
  have hNone : (casePairRuns.dropWhile (·.1 < 128)).flatMap (pairedBy n) = [] := by
    refine List.flatMap_eq_nil_iff.mpr fun run hRun => ?_
    have hFirst := hBeyond run hRun
    obtain ⟨first, last, step, distance⟩ := run
    have hNotIn : ¬ (first ≤ n ∧ n ≤ last ∧ (n - first) % step = 0) := by omega
    have hNotBehind : ¬ (first + distance ≤ n ∧ n ≤ last + distance ∧
        (n - distance - first) % step = 0) := by omega
    exact congrArg₂ (· ++ ·) (if_neg hNotIn) (if_neg hNotBehind)
  unfold asciiPairRuns
  rw [← List.append_nil ((casePairRuns.takeWhile _).flatMap _), ← hNone, ← List.flatMap_append,
    List.takeWhile_append_dropWhile]

/-- The case variants of a character of ASCII. -/
def asciiVariants (c : Char) : List Char :=
  match caseFamilies.find? (·.contains c.toNat) with
  | some family => family.map Char.ofNat
  | none => c :: (asciiPairRuns.flatMap (pairedBy c.toNat)).map Char.ofNat

theorem caseVariants_of_ascii {c : Char} (h : c.toNat < 128) :
    caseVariants c = asciiVariants c := by
  rw [asciiVariants, ← flatMap_pairedBy_of_ascii h]
  rfl

end Unicode

instance (c d : Char) : Decidable (SameButCase c d) := inferInstanceAs (Decidable (_ ∨ _))

/-- Characters of ASCII that differ at most in case have the same lower case. -/
theorem toLower_eq_of_sameButCase {c d : Char} (hc : c.toNat < 128) (hd : d.toNat < 128)
    (h : SameButCase c d) : d.toLower = c.toLower := by
  rcases h with rfl | h
  · rfl
  · rw [Unicode.caseVariants_of_ascii hd] at h
    have hEach := forall_ascii (fun d => (Unicode.asciiVariants d).all
      (fun c => decide (c.toNat < 128 → d.toLower = c.toLower)) = true) (by decide +kernel) hd
    exact of_decide_eq_true (List.all_eq_true.mp hEach c h) hc

/-- A word of ASCII in any case, as far as ASCII goes. -/
theorem map_toLower_of_anyCase {w u : List Char} (hWord : IsAscii w) (hAscii : IsAscii u)
    (h : u ∈ anyCase w) : u.map Char.toLower = w.map Char.toLower := by
  have hBoth : List.Forall₂ SameButCase w u := h
  clear h
  induction hBoth with
  | nil => rfl
  | cons hc _ ih =>
    obtain ⟨hcAscii, hWord⟩ := isAscii_cons.mp hWord
    obtain ⟨hdAscii, hAscii⟩ := isAscii_cons.mp hAscii
    rw [List.map_cons, List.map_cons, toLower_eq_of_sameButCase hcAscii hdAscii hc,
      ih hWord hAscii]

/-- A character whose lower case is of ASCII is of ASCII. -/
theorem ascii_of_toLower {c : Char} (h : c.toLower.toNat < 128) : c.toNat < 128 := by
  unfold Char.toLower at h
  split at h
  · next hRange =>
    have hLe : c.toNat ≤ 90 := hRange.2
    omega
  · exact h

theorem isAscii_of_map_toLower {u w : List Char} (hWord : IsAscii w)
    (h : u.map Char.toLower = w) : IsAscii u := by
  intro c hc
  refine ascii_of_toLower (hWord _ ?_)
  rw [← h]
  exact List.mem_map_of_mem hc

end Scenarist
