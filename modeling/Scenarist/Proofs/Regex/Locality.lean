import Scenarist.Proofs.Refusal
import Scenarist.Proofs.Text.Scan
import Scenarist.Regex.Reader

/-!
# How far readers look

The readers of the pieces of an expression stop where a piece ends.  So a piece that is read at the
end of a text is read in the same way when the text goes on behind a closing bracket.

* `Local`: a reader does not look behind what it reads, as far as a closing bracket can show.
* `skip_append`, `skip_append_of_nil`: only a comment can take in what follows a text.
* `local_readEscape`, `readBounds_append`, `local_readName`, `readFlags_append`: the pieces of an
  expression that are read without going into it.
-/

namespace Scenarist.Regex

/-- What follows an expression that stands in a bracket up to the end of a text. -/
def closing : List Char := [')', '$']

/-- What is read of a text is read also of the text with a closing bracket behind it. -/
def Local {α : Type} (read : List Char → Except RegexFault (α × List Char)) : Prop :=
  ∀ ⦃s : List Char⦄ ⦃a : α⦄ ⦃rest : List Char⦄, read s = .ok (a, rest) →
    rest.length ≤ s.length ∧ read (s ++ closing) = .ok (a, rest ++ closing)

/-- What a text begins with in front of the bracket it begins with, unless this is the bracket. -/
theorem exists_of_append_closing {u v : List Char} {d : Char} (h : u ++ closing = d :: v)
    (hd : d ≠ ')') : ∃ t, u = d :: t := by
  cases u with
  | nil => exact absurd (List.cons.inj h).1.symm hd
  | cons c t => exact ⟨t, by rw [(List.cons.inj h).1]⟩

/-! ### Blanks and comments -/

theorem length_skipSpaced_le (inComment : Bool) (s : List Char) :
    (skipSpaced inComment s).length ≤ s.length := by
  fun_induction skipSpaced inComment s with
  | case1 => exact Nat.le_refl 0
  | case2 c rest ih => exact Nat.le_succ_of_le ih
  | case3 inComment c rest hText hBlank ih => exact Nat.le_succ_of_le ih
  | case4 inComment rest hText hBlank ih => exact Nat.le_succ_of_le ih
  | case5 => exact Nat.le_refl _

theorem skipSpaced_append {inComment : Bool} {s : List Char} (h : skipSpaced inComment s ≠ [])
    (t : List Char) : skipSpaced inComment (s ++ t) = skipSpaced inComment s ++ t := by
  fun_induction skipSpaced inComment s with
  | case1 => exact absurd rfl h
  | case2 c rest ih => exact ih h
  | case3 inComment c rest hText hBlank ih =>
    rw [List.cons_append, skipSpaced, if_neg hText, if_pos hBlank]
    exact ih h
  | case4 inComment rest hText hBlank ih =>
    rw [List.cons_append, skipSpaced, if_neg hText, if_neg hBlank, if_pos rfl]
    exact ih h
  | case5 inComment c rest hText hBlank hComment =>
    rw [List.cons_append, skipSpaced, if_neg hText, if_neg hBlank, if_neg hComment]

/-- A text of blanks and comments is skipped, and the bracket behind it too if the last comment is
not ended. -/
theorem skipSpaced_append_of_nil {inComment : Bool} {s : List Char}
    (h : skipSpaced inComment s = []) :
    skipSpaced inComment (s ++ closing) = closing ∨ skipSpaced inComment (s ++ closing) = [] := by
  fun_induction skipSpaced inComment s with
  | case1 inComment =>
    cases inComment with
    | false => exact .inl rfl
    | true => exact .inr rfl
  | case2 c rest ih => exact ih h
  | case3 inComment c rest hText hBlank ih =>
    rw [List.cons_append, skipSpaced, if_neg hText, if_pos hBlank]
    exact ih h
  | case4 inComment rest hText hBlank ih =>
    rw [List.cons_append, skipSpaced, if_neg hText, if_neg hBlank, if_pos rfl]
    exact ih h
  | case5 inComment c rest => exact absurd h (List.cons_ne_nil c rest)

variable (f : Flags)

theorem length_skip_le (s : List Char) : (f.skip s).length ≤ s.length := by
  unfold Flags.skip
  split
  · exact length_skipSpaced_le false s
  · exact Nat.le_refl _

variable {f}

theorem skip_append {s : List Char} (h : f.skip s ≠ []) (t : List Char) :
    f.skip (s ++ t) = f.skip s ++ t := by
  unfold Flags.skip at h ⊢
  by_cases hSpaced : f.spaced = true
  · simp only [if_pos hSpaced] at h ⊢
    exact skipSpaced_append h t
  · simp only [if_neg hSpaced]

theorem skip_nil : f.skip [] = [] := by
  unfold Flags.skip
  split <;> rfl

theorem skip_append_cons {s u : List Char} {c : Char} (h : f.skip s = c :: u) (t : List Char) :
    f.skip (s ++ t) = c :: (u ++ t) := by
  rw [skip_append (h ▸ List.cons_ne_nil c u), h, List.cons_append]

theorem skip_append_of_nil {s : List Char} (h : f.skip s = []) :
    f.skip (s ++ closing) = closing ∨ f.skip (s ++ closing) = [] := by
  unfold Flags.skip at h ⊢
  by_cases hSpaced : f.spaced = true
  · simp only [if_pos hSpaced] at h ⊢
    exact skipSpaced_append_of_nil h
  · simp only [if_neg hSpaced] at h ⊢
    rw [h]
    exact .inl rfl

/-! ### Escapes -/

theorem Local.of_cons {α : Type} {read : List Char → Except RegexFault (α × List Char)}
    (hNil : read [] = .error .malformed) (hCons : ∀ c, Local fun s => read (c :: s)) :
    Local read := by
  intro s a rest h
  cases s with
  | nil => rw [hNil] at h; cases h
  | cons c s =>
    obtain ⟨hLength, hMore⟩ := hCons c h
    exact ⟨Nat.le_succ_of_le hLength, hMore⟩

/-- A reader that takes nothing more. -/
theorem Local.fixed {α : Type} (e : Except RegexFault α) :
    Local fun s => e.map fun a => (a, s) := by
  intro s a rest h
  obtain ⟨a', rfl, hEq⟩ := map_eq_ok_iff.mp h
  obtain ⟨rfl, rfl⟩ := Prod.mk.inj hEq
  exact ⟨Nat.le_refl _, rfl⟩

theorem local_readCodePoint (width : Nat) : Local (readCodePoint width) := by
  intro s a rest h
  fun_cases readCodePoint width s with
  | case1 s hStop =>
    rw [readCodePoint, hStop] at h
    cases h
  | case2 s c after hStop =>
    obtain ⟨hTake, hDrop, hLength⟩ := Text.scan_append_of_found hStop closing
    rw [readCodePoint, hStop] at h
    obtain ⟨a', hPoint, hEq⟩ := map_eq_ok_iff.mp h
    obtain ⟨rfl, rfl⟩ := Prod.mk.inj hEq
    refine ⟨Nat.le_of_lt (Nat.lt_succ_of_lt hLength), ?_⟩
    rw [List.cons_append, readCodePoint, hDrop, hTake, hPoint]
    rfl
  | case3 s hPlain hShort =>
    rw [readCodePoint.eq_2 _ _ hPlain, if_pos hShort] at h
    cases h
  | case4 s hPlain hEnough =>
    have hWidth : width ≤ s.length := Nat.le_of_not_lt hEnough
    have hPlainMore : ∀ rest, s ++ closing = '\x7b' :: rest → False := by
      intro rest hEq
      obtain ⟨t, rfl⟩ := exists_of_append_closing hEq (by decide)
      exact hPlain t rfl
    rw [readCodePoint.eq_2 _ _ hPlain, if_neg hEnough] at h
    obtain ⟨a', hPoint, hEq⟩ := map_eq_ok_iff.mp h
    obtain ⟨rfl, rfl⟩ := Prod.mk.inj hEq
    refine ⟨by rw [List.length_drop]; exact Nat.sub_le _ _, ?_⟩
    rw [readCodePoint.eq_2 _ _ hPlainMore, if_neg (by rw [List.length_append]; omega),
      List.take_append_of_le_length hWidth, List.drop_append_of_le_length hWidth, hPoint]
    rfl

theorem local_readBoundary : Local readBoundary := by
  intro s a rest h
  fun_cases readBoundary s with
  | case1 c s hLetter named hStop =>
    change (c :: s).dropWhile (· != '\x7d') = [] at hStop
    simp only [readBoundary, if_pos hLetter, hStop] at h
    cases h
  | case2 c s hLetter named d after hStop boundary hName =>
    change (c :: s).dropWhile (· != '\x7d') = d :: after at hStop
    change namedBoundary? (String.ofList ((c :: s).takeWhile (· != '\x7d'))) = _ at hName
    obtain ⟨hTake, hDrop, hLength⟩ := Text.scan_append_of_found hStop closing
    simp only [readBoundary, if_pos hLetter, hStop, hName] at h
    obtain ⟨rfl, rfl⟩ := Prod.mk.inj (Except.ok.inj h)
    rw [List.cons_append] at hDrop hTake
    refine ⟨Nat.le_of_lt (Nat.lt_succ_of_lt hLength), ?_⟩
    simp only [List.cons_append, readBoundary, if_pos hLetter, hDrop, hTake, hName]
  | case3 c s hLetter named d after hStop hName =>
    change (c :: s).dropWhile (· != '\x7d') = d :: after at hStop
    change namedBoundary? (String.ofList ((c :: s).takeWhile (· != '\x7d'))) = _ at hName
    simp only [readBoundary, if_pos hLetter, hStop, hName] at h
    cases h
  | case4 c s hLetter =>
    rw [readBoundary, if_neg hLetter] at h
    obtain ⟨rfl, rfl⟩ := Prod.mk.inj (Except.ok.inj h)
    refine ⟨Nat.le_refl _, ?_⟩
    rw [List.cons_append, List.cons_append, readBoundary, if_neg hLetter]
  | case5 s hOther =>
    rw [readBoundary.eq_2 _ hOther] at h
    obtain ⟨rfl, rfl⟩ := Prod.mk.inj (Except.ok.inj h)
    refine ⟨Nat.le_refl _, ?_⟩
    by_cases hBrace : s = ['\x7b']
    · subst hBrace
      rfl
    · refine readBoundary.eq_2 _ fun d t hEq => ?_
      obtain ⟨u, rfl⟩ := exists_of_append_closing hEq (by decide)
      cases u with
      | nil => exact hBrace rfl
      | cons e u => exact hOther e u rfl

theorem local_readEscape (f : Flags) : Local (readEscape f) := by
  refine Local.of_cons rfl fun c s a rest h => ?_
  simp only [readEscape] at h ⊢
  split at h
  case h_1 => exact local_readCodePoint 2 h
  case h_2 => exact local_readCodePoint 4 h
  case h_3 => exact local_readCodePoint 8 h
  case h_18 => exact local_readBoundary h
  case h_22 =>
    by_cases hEscapable : isEscapable c = true
    · rw [if_pos hEscapable] at h ⊢
      exact Local.fixed (.ok _) h
    · rw [if_neg hEscapable] at h
      cases h
  -- the classes, which may be refused outside Unicode, then the single characters and conditions
  case h_4 | h_5 | h_6 | h_7 | h_8 | h_9 => exact Local.fixed _ h
  all_goals exact Local.fixed (.ok _) h

/-! ### Repetitions -/

theorem readLazy_append (s : List Char) :
    readLazy (s ++ closing) = ((readLazy s).1, (readLazy s).2 ++ closing) := by
  fun_cases readLazy s with
  | case1 rest => rfl
  | case2 s hOther =>
    rcases s with _ | ⟨c, s⟩
    · rfl
    · refine readLazy.eq_2 _ fun rest hEq => hOther s ?_
      rw [(List.cons.inj hEq).1]

theorem length_readLazy_le (s : List Char) : (readLazy s).2.length ≤ s.length := by
  fun_cases readLazy s with
  | case1 rest => exact Nat.le_succ _
  | case2 s hOther => exact Nat.le_refl _

theorem scan_closing {p : Char → Bool} (hStop : p ')' = false) (s : List Char) :
    (s ++ closing).takeWhile p = s.takeWhile p ∧
      (s ++ closing).dropWhile p = s.dropWhile p ++ closing :=
  Text.scan_append_cons hStop s ['$']

theorem readCount_append (s : List Char) :
    readCount (s ++ closing) = (fun r => (r.1, r.2 ++ closing)) <$> readCount s := by
  have hBlank : Text.isBlank ')' = false := by decide
  have hDigit : Char.isDigit ')' = false := by decide
  simp only [readCount, (scan_closing hBlank _).2, (scan_closing hDigit _).1,
    (scan_closing hDigit _).2]
  split_ifs <;> rfl

theorem local_readCount : Local readCount := by
  intro s a rest h
  refine ⟨?_, by rw [readCount_append, h]; rfl⟩
  have hLength : (((s.dropWhile Text.isBlank).dropWhile Char.isDigit).dropWhile
      Text.isBlank).length ≤ s.length :=
    ((List.length_dropWhile_le _ _).trans (List.length_dropWhile_le _ _)).trans
      (List.length_dropWhile_le _ _)
  unfold readCount at h
  simp only at h
  split_ifs at h
  · obtain ⟨-, rfl⟩ := Prod.mk.inj (Except.ok.inj h)
    exact hLength
  · obtain ⟨-, rfl⟩ := Prod.mk.inj (Except.ok.inj h)
    exact hLength

theorem readCount_nil : readCount [] = .ok (none, []) := by decide

theorem readBounds_eq_ok_iff {f : Flags} {s rest : List Char} {least : Nat} {most : Option Nat} :
    readBounds f s = .ok (least, most, rest) ↔
      ∃ after, readCount (f.skip s) = .ok (some least, after) ∧
        ((after = '\x7d' :: rest ∧ most = some least) ∨
          ∃ more, after = ',' :: more ∧
            ((f.skip more = '\x7d' :: rest ∧ most = none) ∨
              ∃ greatest, readCount (f.skip more) = .ok (some greatest, '\x7d' :: rest) ∧
                least ≤ greatest ∧ most = some greatest)) := by
  constructor
  · intro h
    obtain ⟨⟨lower, after⟩, hLower, h⟩ := bind_eq_ok_iff.mp h
    cases lower with
    | none => cases h
    | some lower =>
      simp only at h
      split at h
      · cases h
        exact ⟨_, hLower, .inl ⟨rfl, rfl⟩⟩
      · next more =>
        split at h
        · next hSkip =>
          cases h
          exact ⟨_, hLower, .inr ⟨more, rfl, .inl ⟨hSkip, rfl⟩⟩⟩
        · obtain ⟨upper, hUpper, h⟩ := bind_eq_ok_iff.mp h
          split at h
          · next greatest rest' =>
            split_ifs at h with hLe
            cases h
            exact ⟨_, hLower, .inr ⟨more, rfl, .inr ⟨greatest, hUpper, hLe, rfl⟩⟩⟩
          · cases h
      · cases h
  · rintro ⟨after, hLower, ⟨rfl, rfl⟩ | ⟨more, rfl, ⟨hSkip, rfl⟩ | ⟨greatest, hUpper, hLe, rfl⟩⟩⟩
    · rw [readBounds, hLower]
      rfl
    · rw [readBounds, hLower]
      simp only [bind, Except.bind, hSkip]
    · rw [readBounds, hLower]
      simp only [bind, Except.bind]
      split
      · next hSkip =>
        rw [hSkip] at hUpper
        cases hUpper
      · rw [hUpper]
        exact if_pos hLe

theorem readCount_skip_append {f : Flags} {s after : List Char} {n : Nat}
    (h : readCount (f.skip s) = .ok (some n, after)) :
    after.length ≤ s.length ∧
      readCount (f.skip (s ++ closing)) = .ok (some n, after ++ closing) := by
  have hSkip : f.skip s ≠ [] := fun hNil => by
    rw [hNil, readCount_nil] at h
    cases h
  obtain ⟨hLength, hMore⟩ := local_readCount h
  rw [skip_append hSkip]
  exact ⟨hLength.trans (length_skip_le f s), hMore⟩

theorem readBounds_append {f : Flags} {s rest : List Char} {least : Nat} {most : Option Nat}
    (h : readBounds f s = .ok (least, most, rest)) :
    rest.length ≤ s.length ∧ readBounds f (s ++ closing) = .ok (least, most, rest ++ closing) := by
  obtain ⟨after, hLower, hCase⟩ := readBounds_eq_ok_iff.mp h
  obtain ⟨hLength, hLower⟩ := readCount_skip_append hLower
  rcases hCase with ⟨rfl, rfl⟩ | ⟨more, rfl, hCase⟩
  · exact ⟨(Nat.le_succ _).trans hLength, readBounds_eq_ok_iff.mpr ⟨_, hLower, .inl ⟨rfl, rfl⟩⟩⟩
  · rcases hCase with ⟨hSkip, rfl⟩ | ⟨greatest, hUpper, hLe, rfl⟩
    · have hShorter := length_skip_le f more
      rw [hSkip] at hShorter
      have hMore := skip_append (f := f) (hSkip ▸ List.cons_ne_nil _ _) closing
      rw [hSkip] at hMore
      exact ⟨((Nat.le_succ _).trans hShorter).trans ((Nat.le_succ _).trans hLength),
        readBounds_eq_ok_iff.mpr ⟨_, hLower, .inr ⟨_, rfl, .inl ⟨hMore, rfl⟩⟩⟩⟩
    · obtain ⟨hShorter, hUpper⟩ := readCount_skip_append hUpper
      exact ⟨((Nat.le_succ _).trans hShorter).trans ((Nat.le_succ _).trans hLength),
        readBounds_eq_ok_iff.mpr
          ⟨_, hLower, .inr ⟨_, rfl, .inr ⟨greatest, hUpper, hLe, rfl⟩⟩⟩⟩

/-! ### Names and flags -/

theorem local_readName (used : List (Option String)) : Local (readName used) := by
  intro s a rest h
  unfold readName at h ⊢
  simp only at h ⊢
  split at h
  · cases h
  · next c after hStop =>
    obtain ⟨hTake, hDrop, hLength⟩ := Text.scan_append_of_found hStop closing
    split_ifs at h with hName
    cases h
    rw [hDrop, hTake]
    exact ⟨Nat.le_of_lt hLength, if_pos hName⟩

theorem readFlags_append {f g : Flags} {on dangling : Bool} {seen s rest : List Char}
    (h : readFlags f on seen dangling s = .ok (g, rest)) :
    rest ≠ [] ∧ rest.length ≤ s.length ∧
      readFlags f on seen dangling (s ++ closing) = .ok (g, rest ++ closing) := by
  fun_induction readFlags f on seen dangling s with
  | case1 => cases h
  | case2 => cases h
  | case3 f on seen dangling c s hEnd hDangling =>
    cases h
    refine ⟨List.cons_ne_nil c s, Nat.le_refl _, ?_⟩
    rw [List.cons_append, readFlags, if_pos hEnd, if_neg hDangling]
  | case4 => cases h
  | case5 f on seen dangling s hEnd hSeen ih => 
    obtain ⟨hCons, hLength, hMore⟩ := ih h
    refine ⟨hCons, Nat.le_succ_of_le hLength, ?_⟩
    rw [List.cons_append, readFlags, if_neg hEnd, if_neg hSeen, if_pos rfl, hMore]
  | case6 f on seen dangling c s hEnd hSeen hMinus f' hPut ih =>
    obtain ⟨hCons, hLength, hMore⟩ := ih h
    refine ⟨hCons, Nat.le_succ_of_le hLength, ?_⟩
    rw [List.cons_append, readFlags, if_neg hEnd, if_neg hSeen, if_neg hMinus, hPut]
    exact hMore
  | case7 => cases h

theorem readFlags_head {f : Flags} {s : List Char} {r : Flags × List Char}
    (h : readFlags f true [] false s = .ok r) : ∃ c t, s = c :: t ∧ c ≠ 'P' ∧ c ≠ '<' := by
  cases s with
  | nil => cases h
  | cons c s =>
    refine ⟨c, s, rfl, ?_, ?_⟩
    · rintro rfl
      cases h
    · rintro rfl
      cases h

end Scenarist.Regex
