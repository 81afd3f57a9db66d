import Mathlib.Algebra.Group.Nat.Even
import Scenarist.Proofs.Text.NormalForm

/-!
# Runs of backslashes

A text is in raw form when pairing its backslashes leaves it as it is.

* `paired_append_cons_iff`, `Paired.append`: a raw text can be cut at any other character, and raw
  texts can be joined.
* `paired_iff_evenRuns`: a text is raw exactly when all of its runs of backslashes have even length.
* `text_runs`, `runs_text`: a text is its runs of backslashes and the other characters between them.
* `pairBackslashes_rounds_runs`: pairing rounds every run up to an even length and keeps all else.
-/

namespace Scenarist.Text

/-- Pairing the backslashes leaves the text as it is. -/
def Paired (s : List Char) : Prop := pairBackslashes s = s

/-- Every maximal run of backslashes has even length. -/
def EvenRuns (s : List Char) : Prop :=
  ∀ front k back, s = front ++ (List.replicate k '\\' ++ back) → front.getLast? ≠ some '\\' →
    back.head? ≠ some '\\' → Even k

variable {c : Char} {s t : List Char}

theorem pairBackslashes_single (h : s.head? ≠ some '\\') :
    pairBackslashes ('\\' :: s) = '\\' :: '\\' :: pairBackslashes s := by
  rw [pairBackslashes, if_pos rfl]
  rintro rest - rfl
  exact h rfl

/-- The form in which the recursion says that a backslash has no partner. -/
theorem head?_ne_of_single (h : ∀ rest, '\\' = '\\' → s = '\\' :: rest → False) :
    s.head? ≠ some '\\' := by
  intro hEq
  obtain ⟨rest, hRest⟩ := List.head?_eq_some_iff.mp hEq
  exact h rest rfl hRest

theorem length_le_pairBackslashes (s : List Char) : s.length ≤ (pairBackslashes s).length := by
  fun_induction pairBackslashes s with
  | case1 => exact Nat.le_refl 0
  | case2 rest ih => simpa only [List.length_cons, Nat.add_le_add_iff_right] using ih
  | case3 rest hSingle ih =>
    simp only [List.length_cons]
    omega
  | case4 c rest hPair hPlain ih => simpa only [List.length_cons, Nat.add_le_add_iff_right] using ih

/-! ### Cutting and joining -/

theorem pairBackslashes_append_cons (hc : c ≠ '\\') (s t : List Char) :
    pairBackslashes (s ++ c :: t) = pairBackslashes s ++ c :: pairBackslashes t := by
  fun_induction pairBackslashes s with
  | case1 => exact pairBackslashes_cons hc t
  | case2 rest ih =>
    rw [List.cons_append, List.cons_append, pairBackslashes, ih]
    rfl
  | case3 rest hSingle ih =>
    have hHead : (rest ++ c :: t).head? ≠ some '\\' := by
      have hRest := head?_ne_of_single hSingle
      cases rest with
      | nil => simpa using hc
      | cons d rest => exact hRest
    rw [List.cons_append, pairBackslashes_single hHead, ih]
    rfl
  | case4 d rest hPair hPlain ih =>
    rw [List.cons_append, pairBackslashes_cons hPlain, ih]
    rfl

/-- A raw text can be cut at a character that is no backslash. -/
theorem paired_append_cons_iff (hc : c ≠ '\\') : Paired (s ++ c :: t) ↔ Paired s ∧ Paired t := by
  unfold Paired
  rw [pairBackslashes_append_cons hc]
  constructor
  · intro h
    have hLength : (pairBackslashes s).length = s.length := by
      have hAll := congrArg List.length h
      have hs := length_le_pairBackslashes s
      have ht := length_le_pairBackslashes t
      simp only [List.length_append, List.length_cons] at hAll
      omega
    obtain ⟨hs, ht⟩ := List.append_inj h hLength
    exact ⟨hs, (List.cons.inj ht).2⟩
  · rintro ⟨hs, ht⟩
    rw [hs, ht]

theorem paired_cons_iff (hc : c ≠ '\\') : Paired (c :: s) ↔ Paired s :=
  (paired_append_cons_iff (s := []) hc).trans (and_iff_right rfl)

theorem paired_pair_iff : Paired ('\\' :: '\\' :: s) ↔ Paired s := by
  unfold Paired
  rw [pairBackslashes, List.cons.injEq, List.cons.injEq, and_iff_right rfl, and_iff_right rfl]

theorem not_paired_single (h : s.head? ≠ some '\\') : ¬ Paired ('\\' :: s) := by
  unfold Paired
  rw [pairBackslashes_single h]
  intro hEq
  rw [← (List.cons.inj hEq).2] at h
  exact h rfl

/-- Raw texts can be joined. -/
theorem Paired.append (hs : Paired s) (ht : Paired t) : Paired (s ++ t) := by
  fun_induction pairBackslashes s with
  | case1 => exact ht
  | case2 rest ih => exact paired_pair_iff.mpr (ih (paired_pair_iff.mp hs))
  | case3 rest hSingle ih =>
    exact absurd hs (not_paired_single (head?_ne_of_single hSingle))
  | case4 d rest hPair hPlain ih =>
    exact (paired_cons_iff hPlain).mpr (ih ((paired_cons_iff hPlain).mp hs))

/-! ### Runs -/

theorem paired_replicate_iff (k : Nat) : Paired (List.replicate k '\\') ↔ Even k := by
  induction k using Nat.twoStepInduction with
  | zero => exact iff_of_true rfl Even.zero
  | one => exact iff_of_false (by unfold Paired; decide) (by decide)
  | more k ih _ =>
    rw [List.replicate_succ, List.replicate_succ, paired_pair_iff, ih, Nat.even_add,
      iff_true_right (by decide : Even 2)]

/-- A run at the start of a text goes on with a pair in front of it. -/
theorem EvenRuns.of_pair (h : EvenRuns ('\\' :: '\\' :: s)) : EvenRuns s := by
  intro front k back hSplit hFront hBack
  cases front with
  | nil =>
    have hLonger : Even (k + 2) := by
      refine h [] (k + 2) back ?_ (by simp) hBack
      rw [hSplit, List.replicate_succ, List.replicate_succ]
      rfl
    rwa [Nat.even_add, iff_true_right (by decide : Even 2)] at hLonger
  | cons c front =>
    refine h ('\\' :: '\\' :: c :: front) k back ?_ ?_ hBack
    · rw [hSplit]
      rfl
    · rwa [List.getLast?_cons_cons, List.getLast?_cons_cons]

theorem EvenRuns.of_cons (hc : c ≠ '\\') (h : EvenRuns (c :: s)) : EvenRuns s := by
  intro front k back hSplit hFront hBack
  refine h (c :: front) k back (by rw [hSplit]; rfl) ?_ hBack
  cases front with
  | nil => simpa using hc
  | cons d front => rwa [List.getLast?_cons_cons]

theorem Paired.evenRuns (h : Paired s) : EvenRuns s := by
  rintro front k back rfl hFront hBack
  have hRun : Paired (front ++ List.replicate k '\\') := by
    cases back with
    | nil => rwa [List.append_nil] at h
    | cons c back =>
      have hc : c ≠ '\\' := fun hEq => hBack (congrArg some hEq)
      rw [← List.append_assoc] at h
      exact ((paired_append_cons_iff hc).mp h).1
  rcases front.eq_nil_or_concat' with rfl | ⟨init, c, rfl⟩
  · exact (paired_replicate_iff k).mp hRun
  · have hc : c ≠ '\\' := fun hEq => hFront (by rw [List.getLast?_concat, hEq])
    rw [List.append_assoc] at hRun
    exact (paired_replicate_iff k).mp ((paired_append_cons_iff hc).mp hRun).2

/-- **A text is raw exactly when its runs of backslashes have even length.** -/
theorem paired_iff_evenRuns : Paired s ↔ EvenRuns s := by
  refine ⟨Paired.evenRuns, fun hEven => ?_⟩
  fun_induction pairBackslashes s with
  | case1 => rfl
  | case2 rest ih => exact paired_pair_iff.mpr (ih hEven.of_pair)
  | case3 rest hSingle ih =>
    have hOdd : Even 1 := hEven [] 1 rest rfl (by simp) (head?_ne_of_single hSingle)
    exact absurd hOdd (by decide)
  | case4 c rest hPair hPlain ih => exact (paired_cons_iff hPlain).mpr (ih (hEven.of_cons hPlain))

/-! ### Lengths of runs -/

/-- The runs of backslashes in a text: the length of the one that it begins with, and each other
character with the length of the run behind it.  Runs may be empty. -/
structure Runs where
  first : Nat
  later : List (Char × Nat)
  deriving DecidableEq, Repr

namespace Runs

/-- The text that runs stand for. -/
def text (r : Runs) : List Char :=
  List.replicate r.first '\\' ++ r.later.flatMap fun p => p.1 :: List.replicate p.2 '\\'

/-- No run goes on behind a character: the characters between runs are no backslashes. -/
def Maximal (r : Runs) : Prop := ∀ p ∈ r.later, p.1 ≠ '\\'

/-- The same characters with each run as long as `f` makes it. -/
def resize (f : Nat → Nat) (r : Runs) : Runs := ⟨f r.first, r.later.map fun p => (p.1, f p.2)⟩

end Runs

/-- Cuts a text at the characters that are no backslashes. -/
def runs : List Char → Runs
  | [] => ⟨0, []⟩
  | c :: s =>
    let r := runs s
    if c = '\\' then ⟨r.first + 1, r.later⟩ else ⟨0, (c, r.first) :: r.later⟩

/-- The next even length. -/
def evenUp (k : Nat) : Nat := k + k % 2

theorem runs_backslash (s : List Char) :
    runs ('\\' :: s) = ⟨(runs s).first + 1, (runs s).later⟩ := rfl

theorem runs_cons (hc : c ≠ '\\') (s : List Char) :
    runs (c :: s) = ⟨0, (c, (runs s).first) :: (runs s).later⟩ := if_neg hc

theorem text_runs (s : List Char) : (runs s).text = s := by
  induction s with
  | nil => rfl
  | cons c s ih =>
    by_cases hc : c = '\\'
    · subst hc
      rw [runs_backslash]
      exact congrArg ('\\' :: ·) ih
    · rw [runs_cons hc]
      exact congrArg (c :: ·) ih

theorem maximal_runs (s : List Char) : (runs s).Maximal := by
  induction s with
  | nil => exact fun p hp => absurd hp List.not_mem_nil
  | cons c s ih =>
    by_cases hc : c = '\\'
    · subst hc
      exact ih
    · rw [runs_cons hc]
      exact List.forall_mem_cons.mpr ⟨hc, ih⟩

/-- Runs that cannot go on are the runs of their text. -/
theorem runs_text {r : Runs} (h : r.Maximal) : runs r.text = r := by
  obtain ⟨first, later⟩ := r
  induction first with
  | succ k ih =>
    show runs ('\\' :: Runs.text ⟨k, later⟩) = _
    rw [runs_backslash, ih h]
  | zero =>
    induction later with
    | nil => rfl
    | cons p later ih =>
      obtain ⟨c, k⟩ := p
      obtain ⟨hc, hLater⟩ := List.forall_mem_cons.mp h
      have hBehind : ∀ j, runs (Runs.text ⟨j, later⟩) = ⟨j, later⟩ := by
        intro j
        induction j with
        | zero => exact ih hLater
        | succ j ihRun =>
          show runs ('\\' :: Runs.text ⟨j, later⟩) = _
          rw [runs_backslash, ihRun]
      show runs (c :: Runs.text ⟨k, later⟩) = _
      rw [runs_cons hc, hBehind]

theorem first_runs_of_head? (h : s.head? ≠ some '\\') : (runs s).first = 0 := by
  cases s with
  | nil => rfl
  | cons c s =>
    have hc : c ≠ '\\' := fun hEq => h (congrArg some hEq)
    rw [runs_cons hc]

theorem evenUp_add_two (k : Nat) : evenUp (k + 2) = evenUp k + 2 := by
  unfold evenUp
  omega

theorem runs_pairBackslashes (s : List Char) :
    runs (pairBackslashes s) = (runs s).resize evenUp := by
  fun_induction pairBackslashes s with
  | case1 => rfl
  | case2 rest ih =>
    simp only [runs_backslash, ih, Runs.resize, evenUp_add_two]
  | case3 rest hSingle ih =>
    -- The run is this backslash alone, so the partner that it gets ends the run.
    have hFirst := first_runs_of_head? (head?_ne_of_single hSingle)
    simp only [runs_backslash, ih, Runs.resize, hFirst]
    rfl
  | case4 c rest hPair hPlain ih =>
    simp only [runs_cons hPlain, ih, Runs.resize, List.map_cons]
    rfl

/-- **Pairing rounds every run of backslashes up to an even length and keeps all else.**  A text is
cut in one way into maximal runs and the characters between them.  So pairing leaves alone the texts
whose runs are even, gives such a text, and does nothing a second time. -/
theorem pairBackslashes_rounds_runs (s : List Char) :
    (∃ r : Runs, (∀ q : Runs, q.Maximal ∧ q.text = s ↔ q = r) ∧
        pairBackslashes s = (r.resize evenUp).text) ∧
      (pairBackslashes s = s ↔ EvenRuns s) ∧ EvenRuns (pairBackslashes s) ∧
      pairBackslashes (pairBackslashes s) = pairBackslashes s := by
  have hOnce : Paired (pairBackslashes s) := pairBackslashes_pairBackslashes s
  refine ⟨⟨runs s, fun q => ⟨?_, ?_⟩, ?_⟩, paired_iff_evenRuns, paired_iff_evenRuns.mp hOnce, hOnce⟩
  · rintro ⟨hMaximal, rfl⟩
    exact (runs_text hMaximal).symm
  · rintro rfl
    exact ⟨maximal_runs s, text_runs s⟩
  · rw [← runs_pairBackslashes, text_runs]

end Scenarist.Text
