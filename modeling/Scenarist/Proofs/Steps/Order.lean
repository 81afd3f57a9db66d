import Mathlib.Data.List.Perm.Basic
import Mathlib.Data.String.Basic
import Scenarist.Proofs.Steps.Collection
import Scenarist.Proofs.Steps.Resolution

/-!
# The order of submissions

Submissions are sorted by their places before they are added, so the order in which they are given
shows only in those at one place: the sort is stable and leaves them in the order that they have.

* `sorted_eq_iff`: when two lists of submissions are the same once they are sorted.
* `collection_of_reordered`: what stays of a collection when its submissions are reordered.
* `order_shows_at_one_place`: so not every order gives the same answers.
-/

namespace Scenarist

variable {σ : Type}

/-! ### Places -/

namespace Submission

/-- Two submissions were written in one line of one file. -/
def SamePlace (a b : Submission σ) : Prop := a.file = b.file ∧ a.line = b.line

/-- The submission was written in a line of a file. -/
def standsAt (file : String) (line : Nat) (s : Submission σ) : Bool :=
  s.file = file ∧ s.line = line

theorem standsAt_iff {file : String} {line : Nat} {s : Submission σ} :
    s.standsAt file line = true ↔ s.file = file ∧ s.line = line :=
  decide_eq_true_iff

theorem precedes_iff {a b : Submission σ} :
    a.precedes b = true ↔ a.file < b.file ∨ a.file = b.file ∧ a.line ≤ b.line := by
  simp [precedes]

theorem precedes_trans (a b c : Submission σ) (hab : a.precedes b = true)
    (hbc : b.precedes c = true) : a.precedes c = true := by
  rw [precedes_iff] at hab hbc ⊢
  rcases hab with hab | ⟨hab, hLine⟩
  · rcases hbc with hbc | ⟨hbc, -⟩
    · exact .inl (hab.trans hbc)
    · exact .inl (hbc ▸ hab)
  · rcases hbc with hbc | ⟨hbc, hLine'⟩
    · exact .inl (hab ▸ hbc)
    · exact .inr ⟨hab.trans hbc, hLine.trans hLine'⟩

theorem precedes_total (a b : Submission σ) : (a.precedes b || b.precedes a) = true := by
  rw [Bool.or_eq_true, precedes_iff, precedes_iff]
  rcases lt_trichotomy a.file b.file with h | h | h
  · exact .inl (.inl h)
  · rcases Nat.le_total a.line b.line with hLine | hLine
    · exact .inl (.inr ⟨h, hLine⟩)
    · exact .inr (.inr ⟨h.symm, hLine⟩)
  · exact .inr (.inl h)

theorem SamePlace.of_precedes {a b : Submission σ} (hab : a.precedes b = true)
    (hba : b.precedes a = true) : a.SamePlace b := by
  rw [precedes_iff] at hab hba
  rcases hab with hab | ⟨hab, hLine⟩
  · rcases hba with hba | ⟨hba, -⟩
    · exact absurd (hab.trans hba) (lt_irrefl _)
    · exact absurd (hba ▸ hab) (lt_irrefl _)
  · rcases hba with hba | ⟨-, hLine'⟩
    · exact absurd (hab ▸ hba) (lt_irrefl _)
    · exact ⟨hab, Nat.le_antisymm hLine hLine'⟩

/-! ### Sorting -/

theorem sorted_perm (submissions : List (Submission σ)) : (sorted submissions).Perm submissions :=
  List.mergeSort_perm submissions precedes

theorem pairwise_sorted (submissions : List (Submission σ)) :
    (sorted submissions).Pairwise fun a b => a.precedes b = true :=
  List.pairwise_mergeSort precedes_trans precedes_total submissions

/-- **Submissions at one place keep their order.** -/
theorem filter_sorted (submissions : List (Submission σ)) (file : String) (line : Nat) :
    (sorted submissions).filter (standsAt file line) =
      submissions.filter (standsAt file line) := by
  have hPlace : (submissions.filter (standsAt file line)).Pairwise
      fun a b => a.precedes b = true := by
    refine List.pairwise_of_forall_mem_list fun a ha b hb => precedes_iff.mpr (.inr ?_)
    have hA := standsAt_iff.mp (List.mem_filter.mp ha).2
    have hB := standsAt_iff.mp (List.mem_filter.mp hb).2
    exact ⟨hA.1.trans hB.1.symm, (hA.2.trans hB.2.symm).le⟩
  have hKept := (List.sublist_mergeSort precedes_trans precedes_total hPlace
    List.filter_sublist).filter (standsAt file line)
  rw [List.filter_filter] at hKept
  simp only [Bool.and_self] at hKept
  exact (hKept.eq_of_length ((sorted_perm submissions).filter _).length_eq.symm).symm

theorem mem_iff_of_filter_eq {l l' : List (Submission σ)}
    (h : ∀ file line, l.filter (standsAt file line) = l'.filter (standsAt file line))
    (s : Submission σ) : s ∈ l ↔ s ∈ l' := by
  have hStands : s.standsAt s.file s.line = true := standsAt_iff.mpr ⟨rfl, rfl⟩
  have hFilter : s ∈ l.filter (standsAt s.file s.line) ↔ s ∈ l'.filter (standsAt s.file s.line) := by
    rw [h]
  simpa only [List.mem_filter, hStands, and_true] using hFilter

/-- Lists in the order of places are equal when they are equal at every place. -/
theorem eq_of_filter_eq {l l' : List (Submission σ)}
    (hl : l.Pairwise fun a b => a.precedes b = true)
    (hl' : l'.Pairwise fun a b => a.precedes b = true)
    (h : ∀ file line, l.filter (standsAt file line) = l'.filter (standsAt file line)) :
    l = l' := by
  induction l generalizing l' with
  | nil =>
    refine (List.eq_nil_iff_forall_not_mem.mpr fun s hs => ?_).symm
    exact absurd ((mem_iff_of_filter_eq h s).mpr hs) List.not_mem_nil
  | cons a rest ih =>
    cases l' with
    | nil => exact absurd ((mem_iff_of_filter_eq h a).mp List.mem_cons_self) List.not_mem_nil
    | cons b rest' =>
      have hab : a.precedes b = true := by
        rcases List.mem_cons.mp ((mem_iff_of_filter_eq h b).mpr List.mem_cons_self) with rfl | hb
        · exact precedes_iff.mpr (.inr ⟨rfl, le_rfl⟩)
        · exact List.rel_of_pairwise_cons hl hb
      have hba : b.precedes a = true := by
        rcases List.mem_cons.mp ((mem_iff_of_filter_eq h a).mp List.mem_cons_self) with rfl | ha
        · exact precedes_iff.mpr (.inr ⟨rfl, le_rfl⟩)
        · exact List.rel_of_pairwise_cons hl' ha
      -- Both heads are the first submission of one place.
      have hPlace := SamePlace.of_precedes hab hba
      have hA : a.standsAt a.file a.line = true := standsAt_iff.mpr ⟨rfl, rfl⟩
      have hB : b.standsAt a.file a.line = true :=
        standsAt_iff.mpr ⟨hPlace.1.symm, hPlace.2.symm⟩
      have hHeads := h a.file a.line
      rw [List.filter_cons_of_pos hA, List.filter_cons_of_pos hB] at hHeads
      obtain rfl := (List.cons.inj hHeads).1
      refine congrArg (a :: ·) (ih hl.of_cons hl'.of_cons fun file line => ?_)
      have hBoth := h file line
      rw [List.filter_cons, List.filter_cons] at hBoth
      split at hBoth
      · exact (List.cons.inj hBoth).2
      · exact hBoth

theorem sorted_eq_iff {l l' : List (Submission σ)} :
    sorted l = sorted l' ↔
      ∀ file line, l.filter (standsAt file line) = l'.filter (standsAt file line) := by
  constructor
  · intro h file line
    rw [← filter_sorted l, ← filter_sorted l', h]
  · intro h
    refine eq_of_filter_eq (pairwise_sorted l) (pairwise_sorted l') fun file line => ?_
    rw [filter_sorted, filter_sorted, h]

/-- Submissions at different places have no order at any place. -/
theorem filter_eq_of_perm {l l' : List (Submission σ)} (h : l.Perm l')
    (hPlaces : l.Pairwise fun a b => ¬ a.SamePlace b) (file : String) (line : Nat) :
    l.filter (standsAt file line) = l'.filter (standsAt file line) := by
  have hPerm := h.filter (standsAt file line)
  rcases hFilter : l.filter (standsAt file line) with _ | ⟨a, _ | ⟨b, more⟩⟩
  · rw [hFilter] at hPerm
    exact (List.nil_perm.mp hPerm).symm
  · rw [hFilter] at hPerm
    exact List.singleton_perm.mp hPerm
  · have hDiffer := hPlaces.sublist (List.filter_sublist (p := standsAt file line))
    have hStands : ∀ s ∈ l.filter (standsAt file line), s.file = file ∧ s.line = line :=
      fun s hs => standsAt_iff.mp (List.mem_filter.mp hs).2
    rw [hFilter] at hDiffer hStands
    have hA := hStands a List.mem_cons_self
    have hB := hStands b (List.mem_cons_of_mem a List.mem_cons_self)
    exact absurd ⟨hA.1.trans hB.1.symm, hA.2.trans hB.2.symm⟩
      (List.rel_of_pairwise_cons hDiffer List.mem_cons_self)

/-! ### Collecting in another order -/

theorem perm_of_define {l l' : List (Submission σ)} {added added' : List (StepDefinition σ)}
    (h : l.Perm l') (hl : Define l added) (hl' : Define l' added') : added.Perm added' := by
  obtain ⟨added'', hl'', hPerm⟩ := List.perm_comp_forall₂ h hl'
  have hSame := (mapM_eq_ok_iff.mpr hl).symm.trans (mapM_eq_ok_iff.mpr hl'')
  rwa [Except.ok.inj hSame]

/-- The submission at which collecting stops precedes all that are refused. -/
theorem precedes_of_stops {l front back : List (Submission σ)} {bad s : Submission σ}
    {added : List (StepDefinition σ)} (hOrder : sorted l = front ++ bad :: back)
    (defined : Define front added) (hs : s ∈ l) (hRefused : s.Refused) :
    bad.precedes s = true := by
  have hMem : s ∈ front ++ bad :: back := hOrder ▸ List.mem_mergeSort.mpr hs
  rcases List.mem_append.mp hMem with hFront | hBack
  · exact absurd hRefused (not_refused_of_define defined s hFront)
  · rcases List.mem_cons.mp hBack with rfl | hBack
    · exact precedes_iff.mpr (.inr ⟨rfl, le_rfl⟩)
    · have hPairwise := pairwise_sorted l
      rw [hOrder] at hPairwise
      exact List.rel_of_pairwise_cons (List.pairwise_append.mp hPairwise).2.1 hBack

end Submission

open Submission

namespace StepCollection

/-- Two results of collecting that nobody can tell apart: registries that answer every keyword and
text alike, or the same error. -/
def SameAnswers (a b : Except RegistrationError Unit × StepCollection σ) : Prop :=
  (a.1 = .ok () ∧ b.1 = .ok () ∧
    ∀ keyword text, a.2.build.resolve keyword text = b.2.build.resolve keyword text) ∨
  ∃ e, a.1 = .error e ∧ b.1 = .error e

variable {l l' : List (Submission σ)}

theorem addSubmitted_congr (h : ∀ file line,
    l.filter (standsAt file line) = l'.filter (standsAt file line)) (c : StepCollection σ) :
    addSubmitted l c = addSubmitted l' c := by
  rw [addSubmitted, addSubmitted, sorted_eq_iff.mpr h]

/-- Both orders collect the same definitions, or they stop at submissions of one place. -/
theorem addSubmitted_perm (h : l.Perm l') (c : StepCollection σ) :
    (∃ added added', added.Perm added' ∧
      addSubmitted l c = (.ok (), ⟨c.definitions ++ added⟩) ∧
      addSubmitted l' c = (.ok (), ⟨c.definitions ++ added'⟩)) ∨
    ∃ bad ∈ l, ∃ bad' ∈ l', bad.SamePlace bad' ∧ ∃ e e', bad.definition = .error e ∧
      bad'.definition = .error e' ∧ (addSubmitted l c).1 = .error e ∧
      (addSubmitted l' c).1 = .error e' := by
  have hSorted : (sorted l).Perm (sorted l') := (sorted_perm l).trans (h.trans (sorted_perm l').symm)
  obtain ⟨answer, added, hl⟩ := exists_collects (sorted l)
  obtain ⟨answer', added', hl'⟩ := exists_collects (sorted l')
  have hRun : addSubmitted l c = _ := addAll_of_collects hl c
  have hRun' : addSubmitted l' c = _ := addAll_of_collects hl' c
  cases answer with
  | ok _ =>
    cases answer' with
    | ok _ =>
      exact .inl ⟨added, added', perm_of_define hSorted (collects_ok_iff.mp hl)
        (collects_ok_iff.mp hl'), hRun, hRun'⟩
    | error e' =>
      obtain ⟨s, hs, hRefused⟩ := exists_collects_error_iff.mp ⟨e', added', hl'⟩
      exact absurd hRefused
        (not_refused_of_define (collects_ok_iff.mp hl) s (hSorted.mem_iff.mpr hs))
  | error e =>
    cases answer' with
    | ok _ =>
      obtain ⟨s, hs, hRefused⟩ := exists_collects_error_iff.mp ⟨e, added, hl⟩
      exact absurd hRefused
        (not_refused_of_define (collects_ok_iff.mp hl') s (hSorted.mem_iff.mp hs))
    | error e' =>
      obtain ⟨front, bad, back, hOrder, defined, refused⟩ := collects_error_iff.mp hl
      obtain ⟨front', bad', back', hOrder', defined', refused'⟩ := collects_error_iff.mp hl'
      have hBad : bad ∈ l := List.mem_mergeSort.mp
        (show bad ∈ sorted l from hOrder ▸ List.mem_append_right _ List.mem_cons_self)
      have hBad' : bad' ∈ l' := List.mem_mergeSort.mp
        (show bad' ∈ sorted l' from hOrder' ▸ List.mem_append_right _ List.mem_cons_self)
      have hRefused := exists_definition_eq_error_iff.mp ⟨e, refused⟩
      have hRefused' := exists_definition_eq_error_iff.mp ⟨e', refused'⟩
      have hPlace := SamePlace.of_precedes
        (precedes_of_stops hOrder defined (h.mem_iff.mpr hBad') hRefused')
        (precedes_of_stops hOrder' defined' (h.mem_iff.mp hBad) hRefused)
      exact .inr ⟨bad, hBad, bad', hBad', hPlace, e, e', refused, refused',
        congrArg Prod.fst hRun, congrArg Prod.fst hRun'⟩

/-- **Collecting submissions in another order.**

* Nothing changes when the submissions of every single place keep their order, and so when no two of
  them are at one place.
* In any order either all submissions are collected, and then at most the order of the definitions
  that an ambiguous answer lists changes, or collecting stops at a submission of the same place. -/
theorem collection_of_reordered (h : l.Perm l') (c : StepCollection σ) :
    ((∀ file line, l.filter (standsAt file line) = l'.filter (standsAt file line)) →
      addSubmitted l c = addSubmitted l' c) ∧
    ((l.Pairwise fun a b => ¬ a.SamePlace b) → addSubmitted l c = addSubmitted l' c) ∧
    ((addSubmitted l c).1 = .ok () ∧ (addSubmitted l' c).1 = .ok () ∧
        (∀ keyword text location, StepRegistry.SameUpToOrder
          ((addSubmitted l c).2.build.resolveAt keyword text location)
          ((addSubmitted l' c).2.build.resolveAt keyword text location)) ∨
      ∃ bad ∈ l, ∃ bad' ∈ l', bad.SamePlace bad' ∧ ∃ e e', bad.definition = .error e ∧
        bad'.definition = .error e' ∧ (addSubmitted l c).1 = .error e ∧
        (addSubmitted l' c).1 = .error e') := by
  refine ⟨fun hPlaces => addSubmitted_congr hPlaces c,
    fun hPlaces => addSubmitted_congr (filter_eq_of_perm h hPlaces) c, ?_⟩
  rcases addSubmitted_perm h c with ⟨added, added', hPerm, hRun, hRun'⟩ | hStops
  · refine .inl ⟨congrArg Prod.fst hRun, congrArg Prod.fst hRun', fun keyword text location => ?_⟩
    rw [hRun, hRun']
    exact StepRegistry.sameUpToOrder_of_perm (hPerm.append_left c.definitions)
  · exact .inr hStops

/-! ### Two submissions -/

/-- A submission for the steps of a text with a field, in a line of a file. -/
def userStep (pattern : String) (line : Nat) : Submission Unit :=
  ⟨.given, pattern, fun _ s => (.done, s), [], "steps.rs", line⟩

theorem collection_of_reordered_lines :
    [userStep "a user" 1, userStep "a \x7bname\x7d" 2].Perm
        [userStep "a \x7bname\x7d" 2, userStep "a user" 1] ∧
      addSubmitted [userStep "a user" 1, userStep "a \x7bname\x7d" 2] .empty =
        addSubmitted [userStep "a \x7bname\x7d" 2, userStep "a user" 1] .empty := by
  have hPerm : [userStep "a user" 1, userStep "a \x7bname\x7d" 2].Perm
      [userStep "a \x7bname\x7d" 2, userStep "a user" 1] := .swap _ _ _
  refine ⟨hPerm, (collection_of_reordered hPerm .empty).2.1 ?_⟩
  exact List.pairwise_pair.mpr fun h => absurd h.2 (by decide)

theorem exists_definition_userStep (pattern text : String) (line : Nat)
    (h : (FormatPattern.compile pattern).map
      (fun p => (p.source, (p.captures text.toList).isSome)) = .ok (pattern, true)) :
    ∃ d, (userStep pattern line).definition = .ok d ∧
      (d.keyword = .given ∧ (d.pattern.attempt text).isSome = true) ∧
      d.describe = "Given" ++ " " ++ Text.quoted pattern ++ " (" ++
        (Site.line "steps.rs" line).describe ++ ")" := by
  cases hCompile : FormatPattern.compile pattern with
  | error e =>
    rw [hCompile] at h
    cases h
  | ok p =>
    rw [hCompile] at h
    obtain ⟨hSource, hMatch⟩ := Prod.mk.inj (Except.ok.inj h)
    refine ⟨_, definition_eq_ok_iff.mpr ⟨rfl, p, hCompile, rfl⟩, ⟨rfl, ?_⟩, ?_⟩
    · show ((p.captures text.toList).map _).isSome = true
      rw [Option.isSome_map, hMatch]
    · rw [← hSource]
      rfl

/-- Two submissions that match a text are listed as they were given when they are in this order. -/
theorem collect_pair {first second : Submission Unit} {d d' : StepDefinition Unit}
    {keyword : StepKeyword} {text : String} (hFirst : first.definition = .ok d)
    (hSecond : second.definition = .ok d') (hPlace : first.precedes second = true)
    (hMatch : d.keyword = keyword ∧ (d.pattern.attempt text).isSome = true)
    (hMatch' : d'.keyword = keyword ∧ (d'.pattern.attempt text).isSome = true) :
    (addSubmitted [first, second] .empty).1 = .ok () ∧
      (addSubmitted [first, second] .empty).2.build.resolve keyword text =
        .error (.ambiguous keyword text none [d.describe, d'.describe]) := by
  have hSorted : sorted [first, second] = [first, second] :=
    List.mergeSort_of_pairwise (List.pairwise_pair.mpr hPlace)
  have hRun : addSubmitted [first, second] .empty = (.ok (), ⟨[d, d']⟩) := by
    rw [addSubmitted, hSorted]
    exact addAll_of_collects (.all (.cons hFirst (.cons hSecond .nil))) .empty
  have hMatching : (build ⟨[d, d']⟩).matching keyword text = [d, d'] := by
    simp [StepRegistry.matching, build, hMatch, hMatch']
  have hTwo : 2 ≤ ((build ⟨[d, d']⟩).matching keyword text).length := by
    rw [hMatching]
    exact le_rfl
  rw [hRun, StepRegistry.resolve, StepRegistry.resolveAt_of_two_le_matching hTwo, hMatching]
  exact ⟨rfl, rfl⟩

/-- **Not every order of submissions gives the same answers**: those of one line are listed as they
were given. -/
theorem order_shows_at_one_place :
    ¬ ∀ (l l' : List (Submission Unit)) (c : StepCollection Unit), l.Perm l' →
      SameAnswers (addSubmitted l c) (addSubmitted l' c) := by
  intro hAll
  obtain ⟨d, hUser, hMatch, hDescribe⟩ := exists_definition_userStep "a user"
    "a user" 1 (by decide +kernel)
  obtain ⟨d', hName, hMatch', hDescribe'⟩ := exists_definition_userStep
    "a \x7bname\x7d" "a user" 1 (by decide +kernel)
  obtain ⟨hOk, hAnswer⟩ := collect_pair hUser hName (by decide) hMatch hMatch'
  obtain ⟨-, hAnswer'⟩ := collect_pair hName hUser (by decide) hMatch' hMatch
  rcases hAll _ _ .empty (.swap (userStep "a \x7bname\x7d" 1) (userStep "a user" 1) []) with
    ⟨-, -, hSame⟩ | ⟨e, hError, -⟩
  · have hLists := hSame .given "a user"
    rw [hAnswer, hAnswer'] at hLists
    have hEq : d.describe = d'.describe := by
      have hBoth : d.describe = d'.describe ∧ d'.describe = d.describe := by simpa using hLists
      exact hBoth.1
    rw [hDescribe, hDescribe'] at hEq
    exact absurd hEq (by decide +kernel)
  · rw [hOk] at hError
    cases hError

end StepCollection

end Scenarist
