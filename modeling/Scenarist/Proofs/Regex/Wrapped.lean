import Mathlib.Data.List.ReduceOption
import Scenarist.Proofs.Regex.Anchored
import Scenarist.Proofs.Regex.Brackets

/-!
# Expressions in a bracket

For whole texts a source is read between `^(?:` and `)$`.  Each step that reads it alone is also a
step that reads it there, in one more group: the added group stays the outermost one, and the source
cannot see it.

* `readItem_under`: one step, with the text that follows and the group around it.
* `moves_of_readItem`: what one step does to the open groups and to the names.  A name that is in use
  is not added, so the names stay distinct.
* `readItems_under`: a run.  At its end only a comment that is still open can hide the end of the
  group, and then the group stays open.
* `read_anchored`: between the ends stands the expression that is read alone.
* `attempt_isSome_iff_matchesWhole`: the pattern matches the texts that the source matches in full.
-/

namespace Scenarist

namespace Regex

/-! ### Groups -/

/-- What opens a group: a name, flags of its own, flags from here on, or nothing. -/
theorem readOpening_eq_ok_iff {p q : Progress} {s rest : List Char} :
    readOpening p s = .ok (q, rest) ↔
      (∃ name after, (p.flags.skip s = '?' :: 'P' :: '<' :: after ∨
          p.flags.skip s = '?' :: '<' :: after ∧
            after.head? ≠ some '=' ∧ after.head? ≠ some '!') ∧
        readName p.names after = .ok (name, rest) ∧ q = p.openNumbered (some name)) ∨
      (∃ flags after, p.flags.skip s = '?' :: after ∧
        readFlags p.flags true [] false after = .ok (flags, ':' :: rest) ∧ q = p.openPlain flags) ∨
      (∃ flags after last, p.flags.skip s = '?' :: after ∧ after.head? ≠ some ')' ∧
        readFlags p.flags true [] false after = .ok (flags, last) ∧ last.head? ≠ some ':' ∧
        rest = last.drop 1 ∧
        q = { p with flags := flags, inner := { p.inner with items := none :: p.inner.items } }) ∨
      ((p.flags.skip s).head? ≠ some '?' ∧ rest = p.flags.skip s ∧ q = p.openNumbered none) := by
  unfold readOpening
  generalize p.flags.skip s = u
  constructor
  · intro h
    simp only at h
    split at h
    · next after =>
      obtain ⟨⟨name, rest'⟩, hName, hEq⟩ := map_eq_ok_iff.mp h
      cases hEq
      exact .inl ⟨name, after, .inl rfl, hName, rfl⟩
    · cases h
    · cases h
    · next after hNotAhead hNotBehind =>
      obtain ⟨⟨name, rest'⟩, hName, hEq⟩ := map_eq_ok_iff.mp h
      cases hEq
      refine .inl ⟨name, after, .inr ⟨rfl, ?_, ?_⟩, hName, rfl⟩
      · intro hHead
        obtain ⟨t, rfl⟩ := List.head?_eq_some_iff.mp hHead
        exact hNotAhead t rfl
      · intro hHead
        obtain ⟨t, rfl⟩ := List.head?_eq_some_iff.mp hHead
        exact hNotBehind t rfl
    · next after _ _ _ _ =>
      split at h
      · cases h
      · next flags rest' hFlags =>
        cases h
        exact .inr (.inl ⟨flags, after, rfl, hFlags, rfl⟩)
      · next flags last hOther hFlags =>
        split_ifs at h with hEmpty
        cases h
        refine .inr (.inr (.inl ⟨flags, after, last, rfl, hEmpty, hFlags, ?_, rfl, rfl⟩))
        intro hHead
        obtain ⟨t, rfl⟩ := List.head?_eq_some_iff.mp hHead
        exact hOther t rfl
    · next hOther =>
      cases h
      refine .inr (.inr (.inr ⟨?_, rfl, rfl⟩))
      intro hHead
      obtain ⟨t, rfl⟩ := List.head?_eq_some_iff.mp hHead
      exact hOther t rfl
  · rintro (⟨name, after, rfl | ⟨rfl, hNotAhead, hNotBehind⟩, hName, rfl⟩ |
      ⟨flags, after, rfl, hFlags, rfl⟩ |
      ⟨flags, after, last, rfl, hEmpty, hFlags, hLast, rfl, rfl⟩ |
      ⟨hHead, rfl, rfl⟩)
    · simp only [hName]
      rfl
    · split
      case h_5 after' _ _ _ hNamed hEq => exact absurd (List.cons.inj hEq).2.symm (hNamed after)
      all_goals simp_all [Except.map]
    · obtain ⟨c, t, rfl, hP, hLess⟩ := readFlags_head hFlags
      split
      all_goals simp_all
    · obtain ⟨c, t, rfl, hP, hLess⟩ := readFlags_head hFlags
      split
      case h_5 after' _ _ _ hNamed hEq =>
        obtain rfl := (List.cons.inj hEq).2
        rw [hFlags]
        split
        all_goals simp_all
      all_goals simp_all
    · split
      all_goals simp_all

/-- What has been read, in one more group around it. -/
def Progress.under (p : Progress) (base : OpenGroup) : Progress :=
  { p with outer := p.outer ++ [base] }

variable (base : OpenGroup)

theorem readOpening_under {p q : Progress} {s rest : List Char}
    (h : readOpening p s = .ok (q, rest)) :
    rest.length ≤ s.length ∧
      (readOpening (p.under base) (s ++ closing) = .ok (q.under base, rest ++ closing) ∨
        rest = [] ∧ q.outer ≠ []) := by
  have hLe := length_skip_le p.flags s
  rcases readOpening_eq_ok_iff.mp h with ⟨name, after, hSkip, hName, rfl⟩ |
    ⟨flags, after, hSkip, hFlags, rfl⟩ |
    ⟨flags, after, last, hSkip, hEmpty, hFlags, hLast, rfl, rfl⟩ | ⟨hHead, rfl, rfl⟩
  · obtain ⟨hLength, hMore⟩ := local_readName p.names hName
    refine ⟨?_, .inl (readOpening_eq_ok_iff.mpr (.inl ⟨name, after ++ closing, ?_, hMore, rfl⟩))⟩
    · rcases hSkip with hSkip | ⟨hSkip, _⟩
      all_goals
        rw [hSkip] at hLe
        simp only [List.length_cons] at hLe
        omega
    · rcases hSkip with hSkip | ⟨hSkip, hNotAhead, hNotBehind⟩
      · exact .inl (skip_append_cons hSkip closing)
      · refine .inr ⟨skip_append_cons hSkip closing, ?_, ?_⟩
        all_goals cases after <;> simp_all [closing]
  · obtain ⟨-, hLength, hMore⟩ := readFlags_append hFlags
    rw [hSkip] at hLe
    simp only [List.length_cons] at hLe hLength
    exact ⟨by omega, .inl (readOpening_eq_ok_iff.mpr
      (.inr (.inl ⟨flags, after ++ closing, skip_append_cons hSkip closing, hMore, rfl⟩)))⟩
  · obtain ⟨hSome, hLength, hMore⟩ := readFlags_append hFlags
    obtain ⟨c, last, rfl⟩ := List.exists_cons_of_ne_nil hSome
    obtain ⟨d, after, rfl, -⟩ := readFlags_head hFlags
    rw [hSkip] at hLe
    simp only [List.length_cons] at hLe hLength
    refine ⟨by simp only [List.drop_succ_cons, List.drop_zero]; omega, ?_⟩
    exact .inl (readOpening_eq_ok_iff.mpr (.inr (.inr (.inl
      ⟨flags, d :: (after ++ closing), c :: (last ++ closing), skip_append_cons hSkip closing,
        hEmpty, hMore, hLast, rfl, rfl⟩))))
  · by_cases hNil : p.flags.skip s = []
    · exact ⟨hLe, .inr ⟨hNil, List.cons_ne_nil _ _⟩⟩
    · refine ⟨hLe, .inl ?_⟩
      refine readOpening_eq_ok_iff.mpr
        (.inr (.inr (.inr ⟨?_, (skip_append hNil closing).symm, rfl⟩)))
      show (p.flags.skip (s ++ closing)).head? ≠ some '?'
      rw [skip_append hNil, List.head?_append_of_ne_nil _ hNil]
      exact hHead

/-! ### Items -/

/-- Repeats the last item from behind the mark of a repetition. -/
def readRepeated (p : Progress) (least : Nat) (most : Option Nat) (s : List Char) :
    Except RegexFault (Progress × List Char) := do
  let (isLazy, rest) := readLazy s
  return (← p.repeatLast isLazy least most, rest)

/-- Reads one item from behind its first character; `n` bounds the number of steps. -/
def readItem (n : Nat) (p : Progress) (c : Char) (rest : List Char) :
    Except RegexFault (Progress × List Char) :=
  match c with
  | '(' => readOpening p rest
  | ')' => do return (← p.closeGroup, rest)
  | '|' => .ok ({ p with inner := p.inner.bar }, rest)
  | '[' => do
    let (found, rest) ← readSet p.flags n rest
    return (p.add (.set found), rest)
  | '?' => readRepeated p 0 (some 1) rest
  | '*' => readRepeated p 0 none rest
  | '+' => readRepeated p 1 none rest
  | '\x7b' => do
    let (least, most, rest) ← readBounds p.flags rest
    readRepeated p least most rest
  | '.' => do return (p.add (← anyChar p.flags), rest)
  | '^' => .ok (p.add (.look (startAssertion p.flags)), rest)
  | '$' => .ok (p.add (.look (endAssertion p.flags)), rest)
  | '\\' => do
    let (item, rest) ← readEscape p.flags rest
    match item with
    | .char c => return (p.add (charIn p.flags c), rest)
    | .set found => return (p.add (.set found), rest)
    | .look a => return (p.add (.look a), rest)
  | c => .ok (p.add (charIn p.flags c), rest)

theorem readItems_succ (n : Nat) (p : Progress) (s : List Char) :
    readItems (n + 1) p s =
      match p.flags.skip s with
      | [] => .ok p
      | c :: rest => readItem n p c rest >>= fun (p, rest) => readItems n p rest := by
  rw [readItems]
  rcases p.flags.skip s with _ | ⟨c, rest⟩
  · rfl
  · unfold readItem
    simp only
    split
    all_goals simp_all [readRepeated, bind_assoc]
    case h_13 rest' _ =>
      rcases readEscape p.flags rest' with _ | ⟨_ | _ | _, _⟩
      all_goals rfl

/-! ### In one more group -/

theorem closeGroup_under {p q : Progress} (h : p.closeGroup = .ok q) :
    (p.under base).closeGroup = .ok (q.under base) := by
  rcases p with ⟨flags, inner, _ | ⟨parent, outer⟩, names⟩
  · cases h
  · cases h
    rfl

theorem repeatLast_under {p q : Progress} {isLazy : Bool} {least : Nat} {most : Option Nat}
    (h : p.repeatLast isLazy least most = .ok q) :
    (p.under base).repeatLast isLazy least most = .ok (q.under base) := by
  unfold Progress.repeatLast at h ⊢
  split at h
  · next r items hItems =>
    split_ifs at h with hWeight
    cases h
    simp only [Progress.under, hItems, if_neg hWeight]
  · cases h

theorem readRepeated_under {p q : Progress} {least : Nat} {most : Option Nat} {s rest : List Char}
    (h : readRepeated p least most s = .ok (q, rest)) :
    rest.length ≤ s.length ∧
      readRepeated (p.under base) least most (s ++ closing) =
        .ok (q.under base, rest ++ closing) := by
  have hLe := length_readLazy_le s
  unfold readRepeated at h ⊢
  rw [readLazy_append]
  generalize readLazy s = r at h hLe ⊢
  obtain ⟨isLazy, after⟩ := r
  obtain ⟨q', hLast, hEq⟩ := bind_eq_ok_iff.mp h
  cases hEq
  refine ⟨hLe, ?_⟩
  show ((p.under base).repeatLast isLazy least most >>= _) = _
  rw [repeatLast_under base hLast]
  rfl

/-- **A step in a bracket.**  A step takes the bracket for more text only where it opens a group at
the end of the text, and this group is not closed any more. -/
theorem readItem_under {n : Nat} {p q : Progress} {c : Char} {s rest : List Char}
    (h : readItem n p c s = .ok (q, rest)) (hFuel : s.length ≤ n) (extra : Nat) :
    rest.length ≤ s.length ∧
      (readItem (extra + n) (p.under base) c (s ++ closing) = .ok (q.under base, rest ++ closing) ∨
        rest = [] ∧ q.outer ≠ []) := by
  unfold readItem at h ⊢
  simp only at h ⊢
  -- one case for each of the characters of `readItem`, in its order
  split at h
  · exact readOpening_under base h
  · obtain ⟨q', hClose, hEq⟩ := bind_eq_ok_iff.mp h
    cases hEq
    refine ⟨Nat.le_refl _, .inl ?_⟩
    rw [closeGroup_under base hClose]
    rfl
  · cases h
    exact ⟨Nat.le_refl _, .inl rfl⟩
  · obtain ⟨⟨found, rest'⟩, hSet, hEq⟩ := bind_eq_ok_iff.mp h
    cases hEq
    obtain ⟨hLength, hMore⟩ := readSet_append hSet hFuel extra
    refine ⟨hLength, .inl ?_⟩
    show (readSet p.flags (extra + n) (s ++ closing) >>= _) = _
    rw [hMore]
    rfl
  · obtain ⟨hLength, hMore⟩ := readRepeated_under base h
    exact ⟨hLength, .inl hMore⟩
  · obtain ⟨hLength, hMore⟩ := readRepeated_under base h
    exact ⟨hLength, .inl hMore⟩
  · obtain ⟨hLength, hMore⟩ := readRepeated_under base h
    exact ⟨hLength, .inl hMore⟩
  · obtain ⟨⟨least, most, rest'⟩, hBounds, hEq⟩ := bind_eq_ok_iff.mp h
    obtain ⟨hLength, hBoundsMore⟩ := readBounds_append hBounds
    obtain ⟨hShorter, hMore⟩ := readRepeated_under base hEq
    refine ⟨hShorter.trans hLength, .inl ?_⟩
    show (readBounds p.flags (s ++ closing) >>= _) = _
    rw [hBoundsMore]
    exact hMore
  · obtain ⟨found, hAny, hEq⟩ := bind_eq_ok_iff.mp h
    cases hEq
    refine ⟨Nat.le_refl _, .inl ?_⟩
    show (anyChar p.flags >>= _) = _
    rw [hAny]
    rfl
  · cases h
    exact ⟨Nat.le_refl _, .inl rfl⟩
  · cases h
    exact ⟨Nat.le_refl _, .inl rfl⟩
  · obtain ⟨⟨item, rest'⟩, hEscape, hEq⟩ := bind_eq_ok_iff.mp h
    obtain ⟨hLength, hMore⟩ := local_readEscape p.flags hEscape
    have hRest : rest' = rest := by cases item <;> cases hEq <;> rfl
    subst hRest
    refine ⟨hLength, .inl ?_⟩
    show (readEscape p.flags (s ++ closing) >>= _) = _
    rw [hMore]
    cases item <;> cases hEq <;> rfl
  · cases h
    exact ⟨Nat.le_refl _, .inl rfl⟩

/-! ### What a step does -/

/-- The names behind a step: none is added, or one that is not in use. -/
inductive AddsName (used : List (Option String)) : List (Option String) → Prop
  | same : AddsName used used
  | unnamed : AddsName used (none :: used)
  | named {name : String} (fresh : some name ∉ used) : AddsName used (some name :: used)

/-- What a step does to the groups that are open and to the names: it opens a group, ends the
innermost one or stays in it. -/
inductive Progress.Moves (p q : Progress) : Prop
  | opens (outer : q.outer = p.inner :: p.outer) (names : AddsName p.names q.names)
  | ends {parent : OpenGroup} (outer : p.outer = parent :: q.outer)
      (inner : q.inner.outerFlags = parent.outerFlags) (names : q.names = p.names)
  | stays (outer : q.outer = p.outer) (inner : q.inner.outerFlags = p.inner.outerFlags)
      (names : q.names = p.names)

theorem fresh_of_readName {used : List (Option String)} {name : String} {s rest : List Char}
    (h : readName used s = .ok (name, rest)) : some name ∉ used := by
  unfold readName at h
  simp only at h
  split at h
  · cases h
  · split_ifs at h with hUsable
    cases h
    have hNew := (Bool.and_eq_true_iff.mp hUsable).2
    simpa using hNew

theorem moves_of_readOpening {p q : Progress} {s rest : List Char}
    (h : readOpening p s = .ok (q, rest)) : p.Moves q := by
  rcases readOpening_eq_ok_iff.mp h with ⟨name, after, -, hName, rfl⟩ | ⟨flags, after, -, -, rfl⟩ |
    ⟨flags, after, last, -, -, -, -, -, rfl⟩ | ⟨-, -, rfl⟩
  · exact .opens rfl (.named (fresh_of_readName hName))
  · exact .opens rfl .same
  · exact .stays rfl rfl rfl
  · exact .opens rfl .unnamed

theorem moves_of_closeGroup {p q : Progress} (h : p.closeGroup = .ok q) : p.Moves q := by
  rcases p with ⟨flags, inner, _ | ⟨parent, outer⟩, names⟩
  · cases h
  · cases h
    exact .ends rfl rfl rfl

theorem moves_of_readRepeated {p q : Progress} {least : Nat} {most : Option Nat}
    {s rest : List Char} (h : readRepeated p least most s = .ok (q, rest)) : p.Moves q := by
  obtain ⟨q', hLast, hEq⟩ := bind_eq_ok_iff.mp h
  cases hEq
  unfold Progress.repeatLast at hLast
  split at hLast
  · split_ifs at hLast
    cases hLast
    exact .stays rfl rfl rfl
  · cases hLast

theorem moves_of_readItem {n : Nat} {p q : Progress} {c : Char} {s rest : List Char}
    (h : readItem n p c s = .ok (q, rest)) : p.Moves q := by
  unfold readItem at h
  split at h
  · exact moves_of_readOpening h
  · obtain ⟨q', hClose, hEq⟩ := bind_eq_ok_iff.mp h
    cases hEq
    exact moves_of_closeGroup hClose
  · cases h
    exact .stays rfl rfl rfl
  · obtain ⟨⟨found, rest'⟩, -, hEq⟩ := bind_eq_ok_iff.mp h
    cases hEq
    exact .stays rfl rfl rfl
  · exact moves_of_readRepeated h
  · exact moves_of_readRepeated h
  · exact moves_of_readRepeated h
  · obtain ⟨⟨least, most, rest'⟩, -, hEq⟩ := bind_eq_ok_iff.mp h
    exact moves_of_readRepeated hEq
  · obtain ⟨found, -, hEq⟩ := bind_eq_ok_iff.mp h
    cases hEq
    exact .stays rfl rfl rfl
  · cases h
    exact .stays rfl rfl rfl
  · cases h
    exact .stays rfl rfl rfl
  · obtain ⟨⟨item, rest'⟩, -, hEq⟩ := bind_eq_ok_iff.mp h
    cases item <;> cases hEq <;> exact .stays rfl rfl rfl
  · cases h
    exact .stays rfl rfl rfl

/-- The flags to return to behind the outermost group. -/
def Progress.lastFlags (p : Progress) : Flags := (p.outer.getLastD p.inner).outerFlags

theorem lastFlags_congr {p q : Progress} (hOuter : q.outer = p.outer)
    (hInner : q.inner.outerFlags = p.inner.outerFlags) : q.lastFlags = p.lastFlags := by
  unfold Progress.lastFlags
  rw [hOuter]
  cases p.outer using List.reverseRecOn with
  | nil => exact hInner
  | append_singleton outer g => rw [List.getLastD_concat, List.getLastD_concat]

theorem lastFlags_push {p q : Progress} (h : q.outer = p.inner :: p.outer) :
    q.lastFlags = p.lastFlags := by
  unfold Progress.lastFlags
  rw [h, List.getLastD_cons]

theorem Progress.Moves.lastFlags {p q : Progress} (h : p.Moves q) : q.lastFlags = p.lastFlags := by
  cases h with
  | opens outer names => exact lastFlags_push outer
  | @ends parent outer inner names =>
    have hPush : p.lastFlags = (Progress.mk q.flags parent q.outer q.names).lastFlags :=
      lastFlags_push outer
    rw [hPush]
    exact lastFlags_congr rfl inner
  | stays outer inner names => exact lastFlags_congr outer inner

/-- The names of the groups are distinct. -/
def Progress.Distinct (p : Progress) : Prop := p.names.reduceOption.Nodup

theorem Progress.Moves.distinct {p q : Progress} (h : p.Moves q) (hDistinct : p.Distinct) :
    q.Distinct := by
  unfold Progress.Distinct at hDistinct ⊢
  cases h with
  | opens outer names =>
    generalize q.names = after at names ⊢
    cases names with
    | same => exact hDistinct
    | unnamed => exact hDistinct
    | @named name fresh =>
      rw [List.reduceOption_cons_of_some, List.nodup_cons]
      exact ⟨fun hMem => fresh (List.reduceOption_mem_iff.mp hMem), hDistinct⟩
  | ends outer inner names => rwa [names]
  | stays outer inner names => rwa [names]

theorem distinct_of_readItems {n : Nat} {p q : Progress} {s : List Char} (hDistinct : p.Distinct)
    (h : readItems n p s = .ok q) : q.Distinct := by
  induction n generalizing p s with
  | zero => cases h
  | succ n ih =>
    rw [readItems_succ] at h
    split at h
    · obtain rfl := Except.ok.inj h
      exact hDistinct
    · obtain ⟨⟨p', rest⟩, hItem, hRest⟩ := bind_eq_ok_iff.mp h
      exact ih ((moves_of_readItem hItem).distinct hDistinct) hRest

/-! ### Whole expressions -/

theorem readItems_nil {n : Nat} (hFuel : 0 < n) (p : Progress) : readItems n p [] = .ok p := by
  obtain ⟨n, rfl⟩ := Nat.exists_eq_succ_of_ne_zero (Nat.ne_of_gt hFuel)
  rw [readItems_succ, skip_nil]

theorem skip_dollar (f : Flags) : f.skip ['$'] = ['$'] := by
  unfold Flags.skip
  split <;> rfl

theorem readItems_closing {p : Progress} (hDone : p.outer = []) (n m : Nat) :
    (readItem m (p.under base) ')' ['$'] >>= fun (p, rest) => readItems (n + 2) p rest) =
      .ok ⟨p.lastFlags, (base.add p.inner.close).add (.look (endAssertion p.lastFlags)), [],
        p.names⟩ := by
  obtain ⟨flags, inner, outer, names⟩ := p
  obtain rfl : outer = [] := hDone
  show readItems (n + 2) ⟨inner.outerFlags, base.add inner.close, [], names⟩ ['$'] = _
  rw [readItems_succ, skip_dollar]
  exact readItems_nil (Nat.succ_pos n) _

/-- **A run in a bracket.**  Alone the run ends with all groups closed.  In the bracket, if this
ends too, it has then read the same expression as one item and the end of the text behind it. -/
theorem readItems_under {n extra : Nat} (hExtra : 2 ≤ extra) {p q w : Progress} {s : List Char}
    (h : readItems n p s = .ok q) (hDone : q.outer = []) (hFuel : s.length < n)
    (hMore : readItems (extra + n) (p.under base) (s ++ closing) = .ok w) (hClosed : w.outer = []) :
    w = ⟨p.lastFlags, (base.add q.inner.close).add (.look (endAssertion p.lastFlags)), [],
      q.names⟩ := by
  induction n generalizing p s with
  | zero => exact absurd hFuel (Nat.not_lt_zero _)
  | succ n ih =>
    rw [readItems_succ] at h
    rw [Nat.add_succ, readItems_succ] at hMore
    rcases hSkip : p.flags.skip s with _ | ⟨c, after⟩
    · rw [hSkip] at h
      cases h
      rcases skip_append_of_nil hSkip with hBehind | hBehind
      · obtain ⟨k, hk⟩ : ∃ k, extra + n = k + 2 := ⟨extra + n - 2, by omega⟩
        rw [hk, show (q.under base).flags.skip (s ++ closing) = closing from hBehind] at hMore
        exact Except.ok.inj (hMore.symm.trans (readItems_closing base hDone k (k + 2)))
      · -- a comment takes in the bracket, so that the group around stays open
        rw [show (q.under base).flags.skip (s ++ closing) = [] from hBehind] at hMore
        cases hMore
        simp [Progress.under] at hClosed
    · have hLe := length_skip_le p.flags s
      rw [hSkip, List.length_cons] at hLe
      rw [hSkip] at h
      obtain ⟨⟨p', rest⟩, hItem, hRest⟩ := bind_eq_ok_iff.mp h
      obtain ⟨hLength, hItemMore⟩ := readItem_under base hItem (by omega) extra
      have hSkipMore : (p.under base).flags.skip (s ++ closing) = c :: (after ++ closing) :=
        skip_append_cons hSkip closing
      rw [hSkipMore] at hMore
      rcases hItemMore with hItemMore | ⟨rfl, hOpen⟩
      · rw [← (moves_of_readItem hItem).lastFlags]
        refine ih hRest (by omega) ?_
        simp only at hMore
        rw [hItemMore] at hMore
        exact hMore
      · have hStop : readItems n p' [] = .ok q := hRest
        rw [readItems_nil (by omega)] at hStop
        cases hStop
        exact absurd hDone hOpen

/-- What is read in front of an expression for whole texts: the start of the text and a group. -/
theorem readItems_anchored (n : Nat) (s : List Char) :
    readItems (n + 2) .start (StepPattern.anchored s) =
      readItems n (Progress.start.under ⟨none, {}, [], [some (.look .textStart)]⟩)
        (s ++ closing) :=
  rfl

theorem read_eq_ok_iff {s : List Char} {e : Expression} :
    Expression.read s = .ok e ↔
      ∃ q, readItems (s.length + 1) .start s = .ok q ∧ q.outer = [] ∧
        q.inner.close.weight ≤ weightLimit ∧ e = ⟨q.inner.close, q.names.reverse⟩ := by
  constructor
  · intro h
    obtain ⟨q, hItems, h⟩ := bind_eq_ok_iff.mp h
    split_ifs at h with hDone
    by_cases hWeight : weightLimit < q.inner.close.weight
    · rw [if_pos hWeight] at h
      cases h
    · rw [if_neg hWeight] at h
      exact ⟨q, hItems, List.isEmpty_iff.mp hDone, Nat.le_of_not_lt hWeight,
        (Except.ok.inj h).symm⟩
  · rintro ⟨q, hItems, hDone, hWeight, rfl⟩
    refine bind_eq_ok_iff.mpr ⟨q, hItems, ?_⟩
    rw [if_pos (List.isEmpty_iff.mpr hDone)]
    exact if_neg (Nat.not_lt.mpr hWeight)

/-- **The names of an expression that is read are distinct.** -/
theorem nodup_names_of_read {s : List Char} {e : Expression} (h : Expression.read s = .ok e) :
    e.names.reduceOption.Nodup := by
  obtain ⟨q, hItems, -, -, rfl⟩ := read_eq_ok_iff.mp h
  have hStart : Progress.start.Distinct := List.nodup_nil
  have hDistinct := distinct_of_readItems hStart hItems
  show (q.names.reverse.filterMap id).Nodup
  rw [List.filterMap_reverse, List.nodup_reverse]
  exact hDistinct

/-- **A source that is read alone and between the ends of a text is the same expression there,
between the two ends.** -/
theorem read_anchored {s : List Char} {alone whole : Expression}
    (hAlone : Expression.read s = .ok alone)
    (hWhole : Expression.read (StepPattern.anchored s) = .ok whole) :
    whole = ⟨alone.body.anchored, alone.names⟩ := by
  obtain ⟨q, hItems, hDone, -, rfl⟩ := read_eq_ok_iff.mp hAlone
  obtain ⟨w, hMore, hClosed, -, rfl⟩ := read_eq_ok_iff.mp hWhole
  have hLength : (StepPattern.anchored s).length + 1 = 4 + (s.length + 1) + 2 := by
    simp [StepPattern.anchored]
    omega
  rw [hLength, readItems_anchored] at hMore
  obtain rfl := readItems_under _ (by omega) hItems hDone (Nat.lt_succ_self _) hMore hClosed
  rfl

end Regex

open Regex

/-- Whether an expression matches a text from its first character to its last. -/
def Expression.MatchesWhole (e : Expression) (text : String) : Prop :=
  ∃ h ∈ e.body.run ⟨.ofText text.toList, []⟩, h.spot.rest = []

instance (e : Expression) (text : String) : Decidable (e.MatchesWhole text) :=
  inferInstanceAs (Decidable (∃ h ∈ e.body.run ⟨.ofText text.toList, []⟩, h.spot.rest = []))

theorem Expression.matchesWhole_iff {e : Expression} {text : String} :
    e.MatchesWhole text ↔
      ∃ h, Regex.Leads e.body ⟨.ofText text.toList, []⟩ h ∧ h.spot.rest = [] := by
  constructor
  · rintro ⟨h, hRun, hEnd⟩
    exact ⟨h, leads_of_mem_run hRun, hEnd⟩
  · rintro ⟨h, hLeads, hEnd⟩
    obtain ⟨h', hRun, hSpot⟩ := exists_mem_run_of_leads hLeads
    exact ⟨h', hRun, by rw [hSpot, hEnd]⟩

namespace StepPattern

theorem ofExpression_eq_ok_iff {source : String} {p : StepPattern} :
    ofExpression source = .ok p ↔
      ∃ e, Expression.read (anchored source.toList) = .ok e ∧ p = .expression source e := by
  unfold ofExpression
  rw [mapError_eq_ok_iff]
  constructor
  · intro h
    obtain ⟨e, hRead, rfl⟩ := map_eq_ok_iff.mp h
    exact ⟨e, hRead, rfl⟩
  · rintro ⟨e, hRead, rfl⟩
    rw [hRead]
    rfl

/-- **A pattern from a source that can be read alone matches the texts that the source, taken alone,
matches from the first character to the last.**  Alternatives that the source prefers but that end
earlier do not stand in the way. -/
theorem attempt_isSome_iff_matchesWhole {source text : String} {alone : Expression}
    {p : StepPattern} (hAlone : Expression.read source.toList = .ok alone)
    (hAccepted : ofExpression source = .ok p) :
    (p.attempt text).isSome = true ↔ alone.MatchesWhole text := by
  obtain ⟨whole, hWhole, rfl⟩ := ofExpression_eq_ok_iff.mp hAccepted
  obtain rfl := read_anchored hAlone hWhole
  rw [Expression.matchesWhole_iff, ← captures_anchored_iff]
  exact (congrArg (· = true) Option.isSome_map).to_iff

/-- The alternative that comes first ends before the text does. -/
theorem attempt_shorter_alternative_first :
    ∃ alone p, Expression.read "a|ab".toList = .ok alone ∧ ofExpression "a|ab" = .ok p ∧
      (p.attempt "ab").isSome = true :=
  ⟨_, _, rfl, rfl,
    (@attempt_isSome_iff_matchesWhole "a|ab" "ab" _ _ rfl rfl).mpr (by decide)⟩

/-- A source may close the group that is put around it and open another one: `a)|(?:b` is accepted
and is no expression alone. -/
theorem ofExpression_accepts_unbalanced :
    ¬ ∀ (source : String) (p : StepPattern), ofExpression source = .ok p →
      ∃ alone, Expression.read source.toList = .ok alone ∧
        ∀ text, (p.attempt text).isSome = true → alone.MatchesWhole text := by
  intro hAll
  obtain ⟨alone, hRead, -⟩ := hAll "a)|(?:b" _ rfl
  have hRefused : Expression.read "a)|(?:b".toList = .error .malformed := rfl
  rw [hRefused] at hRead
  cases hRead

end StepPattern

end Scenarist
