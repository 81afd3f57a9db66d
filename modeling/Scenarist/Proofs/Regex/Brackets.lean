import Scenarist.Proofs.Regex.Locality

/-!
# How far bracketed sets are read

A set that ends is read in the same way when the text goes on behind a closing bracket, and more
steps than it takes make no difference to it.

* `openBracket_append`: the start of a bracket, where a minus sign or a closing bracket is text.
* `readRange_eq_ok_iff`, `readRange_append`: ranges and single items.
* `readBrackets_append`, `readSet_append`: a bracket up to its end.
-/

namespace Scenarist.Regex

/-! ### Named classes -/

/-- Reads the name of a class up to `:]`. -/
def className? (s : List Char) : Option (CharSet × List Char) :=
  match s.dropWhile (· != ':') with
  | ':' :: ']' :: rest =>
    (CharSet.ofName? (String.ofList (s.takeWhile (· != ':')))).map fun set => (set, rest)
  | _ => none

theorem className?_append (s : List Char) :
    className? (s ++ closing) = (className? s).map fun r => (r.1, r.2 ++ closing) := by
  unfold className?
  rcases hStop : s.dropWhile (· != ':') with _ | ⟨c, after⟩
  · rw [List.dropWhile_append, hStop]
    rfl
  · obtain ⟨hTake, hDrop, -⟩ := Text.scan_append_of_found hStop closing
    rw [hDrop, hTake]
    rcases after with _ | ⟨d, after⟩
    · simp [closing]
    · by_cases hEnd : c = ':' ∧ d = ']'
      · obtain ⟨rfl, rfl⟩ := hEnd
        simp only [List.cons_append, Option.map_map, Function.comp_def]
      · simp only [List.cons_append]
        split
        · next hEq => simp_all
        · split
          · next hEq => simp_all
          · rfl

theorem className?_eq_map {s rest : List Char}
    (h : s.dropWhile (· != ':') = ':' :: ']' :: rest) :
    className? s = (CharSet.ofName? (String.ofList (s.takeWhile (· != ':')))).map fun set =>
      (set, rest) := by
  simp only [className?, h]

theorem className?_eq_none {s : List Char}
    (h : ∀ rest, s.dropWhile (· != ':') ≠ ':' :: ']' :: rest) : className? s = none := by
  unfold className?
  split
  · next rest hStop => exact absurd hStop (h rest)
  · rfl

theorem length_className?_lt {s rest : List Char} {set : CharSet}
    (h : className? s = some (set, rest)) : rest.length < s.length := by
  unfold className? at h
  split at h
  · next after hStop =>
    obtain ⟨-, -, hLength⟩ := Text.scan_append_of_found hStop []
    obtain ⟨set', -, hEq⟩ := Option.map_eq_some_iff.mp h
    cases hEq
    exact Nat.lt_of_succ_lt hLength
  · cases h

theorem readNamedClass_negated (s : List Char) :
    readNamedClass (':' :: '^' :: s) = (className? s).map fun r => (.compl r.1, r.2) := by
  simp only [readNamedClass]
  split
  · next rest hStop =>
    rw [className?_eq_map hStop, Option.map_map]
    rfl
  · next hOther =>
    rw [className?_eq_none hOther]
    rfl

theorem readNamedClass_plain {s : List Char} (h : s.head? ≠ some '^') :
    readNamedClass (':' :: s) = className? s := by
  rcases s with _ | ⟨c, s⟩
  · rfl
  · have hc : c ≠ '^' := fun hEq => h (congrArg some hEq)
    simp only [readNamedClass, List.cons.injEq, hc, false_and, imp_false, not_false_eq_true,
      implies_true]
    split
    · next rest hStop =>
      rw [className?_eq_map hStop]
      rfl
    · next hOther => rw [className?_eq_none hOther]

theorem readNamedClass_other {s : List Char} (h : s.head? ≠ some ':') :
    readNamedClass s = none := by
  rcases s with _ | ⟨c, s⟩
  · rfl
  · have hc : c ≠ ':' := fun hEq => h (congrArg some hEq)
    simp [readNamedClass, hc]

theorem readNamedClass_append (s : List Char) :
    readNamedClass (s ++ closing) = (readNamedClass s).map fun r => (r.1, r.2 ++ closing) := by
  by_cases hColon : s.head? = some ':'
  · obtain ⟨s, rfl⟩ := List.head?_eq_some_iff.mp hColon
    rw [List.cons_append]
    by_cases hCaret : s.head? = some '^'
    · obtain ⟨s, rfl⟩ := List.head?_eq_some_iff.mp hCaret
      rw [List.cons_append, readNamedClass_negated, readNamedClass_negated, className?_append,
        Option.map_map, Option.map_map]
      rfl
    · have hBehind : (s ++ closing).head? ≠ some '^' := by cases s <;> simp_all [closing]
      rw [readNamedClass_plain hCaret, readNamedClass_plain hBehind, className?_append]
  · have hBehind : (s ++ closing).head? ≠ some ':' := by cases s <;> simp_all [closing]
    rw [readNamedClass_other hColon, readNamedClass_other hBehind, Option.map_none]

theorem length_readNamedClass_lt {s rest : List Char} {found : CharSet}
    (h : readNamedClass s = some (found, rest)) : rest.length < s.length := by
  by_cases hColon : s.head? = some ':'
  · obtain ⟨s, rfl⟩ := List.head?_eq_some_iff.mp hColon
    by_cases hCaret : s.head? = some '^'
    · obtain ⟨s, rfl⟩ := List.head?_eq_some_iff.mp hCaret
      rw [readNamedClass_negated] at h
      obtain ⟨⟨set, rest'⟩, hName, hEq⟩ := Option.map_eq_some_iff.mp h
      cases hEq
      exact Nat.lt_succ_of_lt (Nat.lt_succ_of_lt (length_className?_lt hName))
    · rw [readNamedClass_plain hCaret] at h
      exact Nat.lt_succ_of_lt (length_className?_lt h)
  · rw [readNamedClass_other hColon] at h
    cases h

/-! ### Where a bracket begins -/

theorem leadingMinus_append {f : Flags} {n : Nat} {b b' : Bracket} {s rest : List Char}
    (h : leadingMinus f n b s = (b', rest)) (hSome : rest ≠ []) (hFuel : s.length ≤ n)
    (extra : Nat) :
    rest.length ≤ s.length ∧
      leadingMinus f (extra + n) b (s ++ closing) = (b', rest ++ closing) := by
  fun_induction leadingMinus f n b s with
  | case1 n b s ih =>
    have hLe := length_skip_le f s
    have hSkip : f.skip s ≠ [] := by
      intro hNil
      rw [hNil, leadingMinus] at h
      · exact hSome (Prod.mk.inj h).2.symm
      · simp
    obtain ⟨hLength, hAppend⟩ := ih h (hLe.trans (Nat.le_of_succ_le_succ hFuel))
    refine ⟨(hLength.trans hLe).trans (Nat.le_succ _), ?_⟩
    rw [List.cons_append, Nat.add_succ, leadingMinus, skip_append hSkip, hAppend]
  | case2 n b s hOther =>
    cases h
    obtain ⟨c, s, rfl⟩ := List.exists_cons_of_ne_nil hSome
    obtain ⟨n, rfl⟩ := Nat.exists_eq_succ_of_ne_zero (Nat.ne_zero_of_lt hFuel)
    refine ⟨Nat.le_refl _, leadingMinus.eq_2 _ _ _ _ fun k t hk hEq => ?_⟩
    exact hOther n s rfl (by rw [(List.cons.inj hEq).1])

/-- Reads the first items of a bracket, where a closing bracket is text. -/
def startBracket (f : Flags) (n : Nat) (negated : Bool) (s : List Char) : Bracket × List Char :=
  match leadingMinus f n ⟨negated, none, .empty⟩ s with
  | (b, ']' :: rest) =>
    if s.head? = some ']' then (b.add (.single ']'), f.skip rest) else (b, ']' :: rest)
  | (b, s) => (b, s)

theorem openBracket_negated {f : Flags} {s rest : List Char} (h : f.skip s = '^' :: rest)
    (n : Nat) : openBracket f n s = startBracket f n true (f.skip rest) := by
  rw [openBracket, h]
  rfl

theorem openBracket_plain {f : Flags} {s : List Char} (h : (f.skip s).head? ≠ some '^')
    (n : Nat) : openBracket f n s = startBracket f n false (f.skip s) := by
  unfold openBracket
  generalize f.skip s = u at h ⊢
  rcases u with _ | ⟨c, u⟩
  · rfl
  · have hc : c ≠ '^' := fun hEq => h (congrArg some hEq)
    simp only [List.cons.injEq, hc, false_and, imp_false, not_false_eq_true, implies_true]
    rfl

theorem startBracket_append {f : Flags} {n : Nat} {negated : Bool} {b : Bracket}
    {s rest : List Char} (h : startBracket f n negated s = (b, rest)) (hSome : rest ≠ [])
    (hFuel : s.length ≤ n) (extra : Nat) :
    rest.length ≤ s.length ∧
      startBracket f (extra + n) negated (s ++ closing) = (b, rest ++ closing) := by
  unfold startBracket at h ⊢
  split at h
  · next b' after hMinus =>
    obtain ⟨hLength, hAppend⟩ := leadingMinus_append hMinus (List.cons_ne_nil _ _) hFuel extra
    obtain ⟨c, s, rfl⟩ : ∃ c t, s = c :: t :=
      List.exists_cons_of_length_pos (Nat.lt_of_lt_of_le (Nat.succ_pos _) hLength)
    rw [hAppend]
    by_cases hFirst : (c :: s).head? = some ']'
    · rw [if_pos hFirst] at h
      cases h
      have hLe := length_skip_le f after
      refine ⟨by simp only [List.length_cons] at hLength ⊢; omega, ?_⟩
      rw [← skip_append hSome]
      exact if_pos hFirst
    · rw [if_neg hFirst] at h
      cases h
      exact ⟨hLength, if_neg hFirst⟩
  · next b' after hOther hMinus =>
    cases h
    obtain ⟨hLength, hAppend⟩ := leadingMinus_append hMinus hSome hFuel extra
    obtain ⟨c, rest, rfl⟩ := List.exists_cons_of_ne_nil hSome
    have hc : c ≠ ']' := fun hEq => hOther rest (by rw [hEq])
    refine ⟨hLength, ?_⟩
    rw [hAppend]
    simp [hc]

theorem openBracket_append {f : Flags} {n : Nat} {b : Bracket} {s rest : List Char}
    (h : openBracket f n s = (b, rest)) (hSome : rest ≠ []) (hFuel : s.length ≤ n)
    (extra : Nat) :
    rest.length ≤ s.length ∧
      openBracket f (extra + n) (s ++ closing) = (b, rest ++ closing) := by
  have hLe := length_skip_le f s
  have hNil : ∀ negated, startBracket f n negated [] ≠ (b, rest) := by
    intro negated hEq
    cases n <;> exact hSome (Prod.mk.inj hEq).2.symm
  by_cases hCaret : (f.skip s).head? = some '^'
  · obtain ⟨after, hSkip⟩ := List.head?_eq_some_iff.mp hCaret
    rw [openBracket_negated hSkip] at h
    have hAfter : f.skip after ≠ [] := fun hEq => hNil true (hEq ▸ h)
    have hLe' := length_skip_le f after
    rw [hSkip, List.length_cons] at hLe
    obtain ⟨hLength, hAppend⟩ := startBracket_append h hSome (by omega) extra
    rw [openBracket_negated (skip_append_cons hSkip closing), skip_append hAfter, hAppend]
    exact ⟨by omega, rfl⟩
  · rw [openBracket_plain hCaret] at h
    have hSkip : f.skip s ≠ [] := fun hEq => hNil false (hEq ▸ h)
    obtain ⟨hLength, hAppend⟩ := startBracket_append h hSome (hLe.trans hFuel) extra
    refine ⟨hLength.trans hLe, ?_⟩
    rw [openBracket_plain, skip_append hSkip, hAppend]
    rw [skip_append hSkip, List.head?_append_of_ne_nil _ hSkip]
    exact hCaret

/-! ### Ranges -/

theorem readSetItem_append {f : Flags} {s rest : List Char} {item : Item}
    (h : readSetItem f s = .ok (item, rest)) :
    rest.length < s.length ∧ readSetItem f (s ++ closing) = .ok (item, rest ++ closing) := by
  fun_cases readSetItem f s with
  | case1 => cases h
  | case2 s =>
    obtain ⟨hLength, hMore⟩ := local_readEscape f h
    exact ⟨Nat.lt_succ_of_le hLength, hMore⟩
  | case3 c s hPlain =>
    rw [readSetItem] at h
    · cases h
      exact ⟨Nat.lt_succ_self _, readSetItem.eq_3 f c _ hPlain⟩
    · exact hPlain

/-- The set of an item that stands alone. -/
def Item.toSet? : Item → Option CharSet
  | .char c => some (.single c)
  | .set s => some s
  | .look _ => none

/-- Either a minus sign joins two characters or an item stands alone. -/
theorem readRange_eq_ok_iff {f : Flags} {s rest : List Char} {found : CharSet} :
    readRange f s = .ok (found, rest) ↔
      ∃ first after, readSetItem f s = .ok (first, after) ∧
        ((∃ low high more, first = .char low ∧ f.skip after = '-' :: more ∧
            ¬((f.skip more).head? = some ']' ∨ (f.skip more).head? = some '-') ∧
            readSetItem f (f.skip more) = .ok (.char high, rest) ∧
            low ≤ high ∧ found = .range low high) ∨
          (f.skip after ≠ [] ∧
            (∀ more, f.skip after = '-' :: more →
              (f.skip more).head? = some ']' ∨ (f.skip more).head? = some '-') ∧
            first.toSet? = some found ∧ rest = f.skip after)) := by
  constructor
  · intro h
    obtain ⟨⟨first, after⟩, hFirst, h⟩ := bind_eq_ok_iff.mp h
    refine ⟨first, after, hFirst, ?_⟩
    simp only at h
    split at h
    · cases h
    · next more hSkip =>
      split_ifs at h with hEnd
      · refine .inr ⟨by simp [hSkip], ?_, ?_⟩
        · intro more' hEq
          obtain rfl := (List.cons.inj (hSkip.symm.trans hEq)).2
          exact hEnd
        · cases first <;> cases h <;> exact ⟨rfl, rfl⟩
      · obtain ⟨⟨second, rest'⟩, hSecond, h⟩ := bind_eq_ok_iff.mp h
        simp only at h
        split at h
        · next low high hChars =>
          split_ifs at h with hLe
          cases h
          exact .inl ⟨low, high, more, rfl, hSkip, hEnd, hSecond, hLe, rfl⟩
        · cases h
    · next hNil hMinus =>
      refine .inr ⟨hNil, fun more hEq => absurd hEq (hMinus more), ?_⟩
      cases first <;> cases h <;> exact ⟨rfl, rfl⟩
  · rintro ⟨first, after, hFirst, ⟨low, high, more, rfl, hSkip, hEnd, hSecond, hLe, rfl⟩ |
      ⟨hNil, hEnd, hSet, rfl⟩⟩
    · refine bind_eq_ok_iff.mpr ⟨_, hFirst, ?_⟩
      simp only [hSkip, if_neg hEnd]
      exact bind_eq_ok_iff.mpr ⟨_, hSecond, if_pos hLe⟩
    · refine bind_eq_ok_iff.mpr ⟨_, hFirst, ?_⟩
      have hAlone : (match first with
          | .char c => Except.ok (CharSet.single c, f.skip after)
          | .set s => .ok (s, f.skip after)
          | .look _ => .error RegexFault.malformed) = .ok (found, f.skip after) := by
        cases first <;> cases hSet <;> rfl
      simp only
      split
      · next hEq => exact absurd hEq hNil
      · next more hSkip =>
        rw [if_pos (hEnd more hSkip)]
        exact hAlone
      · exact hAlone

theorem readRange_append {f : Flags} {s rest : List Char} {found : CharSet}
    (h : readRange f s = .ok (found, rest)) :
    rest.length < s.length ∧ readRange f (s ++ closing) = .ok (found, rest ++ closing) := by
  obtain ⟨first, after, hFirst, hCase⟩ := readRange_eq_ok_iff.mp h
  obtain ⟨hLength, hFirst⟩ := readSetItem_append hFirst
  have hLe := length_skip_le f after
  rcases hCase with ⟨low, high, more, rfl, hSkip, hEnd, hSecond, hOrder, rfl⟩ |
    ⟨hNil, hEnd, hSet, rfl⟩
  · have hMore : f.skip more ≠ [] := fun hEq => by
      rw [hEq] at hSecond
      cases hSecond
    obtain ⟨hShorter, hSecond⟩ := readSetItem_append hSecond
    have hLe' := length_skip_le f more
    rw [hSkip, List.length_cons] at hLe
    refine ⟨by omega, readRange_eq_ok_iff.mpr ⟨_, _, hFirst, .inl
      ⟨low, high, more ++ closing, rfl, skip_append_cons hSkip closing, ?_, ?_, hOrder, rfl⟩⟩⟩
    · rw [skip_append hMore, List.head?_append_of_ne_nil _ hMore]
      exact hEnd
    · rw [skip_append hMore]
      exact hSecond
  · refine ⟨by omega, readRange_eq_ok_iff.mpr ⟨_, _, hFirst, .inr ⟨?_, ?_, hSet, ?_⟩⟩⟩
    · rw [skip_append hNil]
      exact List.append_ne_nil_of_left_ne_nil hNil closing
    · intro more hEq
      obtain ⟨c, u, hSkip⟩ := List.exists_cons_of_ne_nil hNil
      rw [skip_append_cons hSkip closing] at hEq
      obtain ⟨rfl, rfl⟩ := List.cons.inj hEq
      have hHead := hEnd u hSkip
      have hMore : f.skip u ≠ [] := fun hEq => by simp [hEq] at hHead
      rw [skip_append hMore, List.head?_append_of_ne_nil _ hMore]
      exact hHead
    · exact (skip_append hNil closing).symm

/-! ### Up to the end of a bracket -/

theorem readBrackets_nil (f : Flags) (n : Nat) (b : Bracket) (outer : List Bracket) :
    readBrackets f n b outer [] = .error .malformed := by
  cases n with
  | zero => rfl
  | succ n => rw [readBrackets, skip_nil]

theorem readBrackets_append {f : Flags} {n : Nat} {b : Bracket} {outer : List Bracket}
    {s rest : List Char} {found : CharSet} (h : readBrackets f n b outer s = .ok (found, rest))
    (hFuel : s.length ≤ n) (extra : Nat) :
    rest.length ≤ s.length ∧
      readBrackets f (extra + n) b outer (s ++ closing) = .ok (found, rest ++ closing) := by
  fun_induction readBrackets f n b outer s with
  | case1 => cases h
  | case2 => cases h
  | case3 n b outer s after hSkip named after' hNamed ih =>
    have hLe := length_skip_le f s
    have hLt := length_readNamedClass_lt hNamed
    rw [hSkip, List.length_cons] at hLe
    obtain ⟨hLength, hAppend⟩ := ih h (by omega)
    refine ⟨by omega, ?_⟩
    rw [Nat.add_succ, readBrackets, skip_append_cons hSkip]
    simp only [readNamedClass_append, hNamed, Option.map_some]
    exact hAppend
  | case4 n b outer s after hSkip hNamed inner after' hOpen ih =>
    have hLe := length_skip_le f s
    rw [hSkip, List.length_cons] at hLe
    have hSome : after' ≠ [] := by
      rintro rfl
      rw [readBrackets_nil] at h
      cases h
    obtain ⟨hShorter, hOpen⟩ := openBracket_append hOpen hSome (by omega) extra
    obtain ⟨hLength, hAppend⟩ := ih h (by omega)
    refine ⟨by omega, ?_⟩
    rw [Nat.add_succ, readBrackets, skip_append_cons hSkip]
    simp only [readNamedClass_append, hNamed, Option.map_none, hOpen]
    exact hAppend
  | case5 n b s after hSkip =>
    have hLe := length_skip_le f s
    rw [hSkip, List.length_cons] at hLe
    cases h
    refine ⟨by omega, ?_⟩
    rw [Nat.add_succ, readBrackets, skip_append_cons hSkip]
    rfl
  | case6 n b s after hSkip parent outer ih =>
    have hLe := length_skip_le f s
    rw [hSkip, List.length_cons] at hLe
    obtain ⟨hLength, hAppend⟩ := ih h (by omega)
    refine ⟨by omega, ?_⟩
    rw [Nat.add_succ, readBrackets, skip_append_cons hSkip]
    exact hAppend
  | case7 n b outer s after hSkip ih | case8 n b outer s after hSkip ih
  | case9 n b outer s after hSkip ih =>
    have hLe := length_skip_le f s
    rw [hSkip, List.length_cons, List.length_cons] at hLe
    obtain ⟨hLength, hAppend⟩ := ih h (by omega)
    refine ⟨by omega, ?_⟩
    rw [Nat.add_succ, readBrackets, skip_append_cons hSkip]
    exact hAppend
  | case10 => cases h
  | case11 n b outer s found' after hNil hOpen hClose hAnd hMinus hTilde hRange ih =>
    have hLe := length_skip_le f s
    obtain ⟨hShorter, hRangeMore⟩ := readRange_append hRange
    obtain ⟨hLength, hAppend⟩ := ih h (by omega)
    refine ⟨by omega, ?_⟩
    obtain ⟨c, u, hSkip⟩ := List.exists_cons_of_ne_nil hNil
    rw [Nat.add_succ, readBrackets, skip_append hNil]
    have hDouble : ∀ d, d ≠ ')' → (∀ t, f.skip s ≠ d :: d :: t) →
        ∀ t, f.skip s ++ closing ≠ d :: d :: t := by
      intro d hd hNot t hEq
      rw [hSkip, List.cons_append] at hEq
      obtain ⟨v, rfl⟩ := exists_of_append_closing (List.cons.inj hEq).2 hd
      exact hNot v (by rw [hSkip, (List.cons.inj hEq).1])
    split
    · next hEq => simp [hSkip] at hEq
    · next hEq =>
      obtain ⟨t, hEq⟩ := exists_of_append_closing hEq (by decide)
      exact absurd hEq (hOpen t)
    · next hEq =>
      obtain ⟨t, hEq⟩ := exists_of_append_closing hEq (by decide)
      exact absurd hEq (hClose t)
    · next t hEq => exact absurd hEq (hDouble '&' (by decide) hAnd t)
    · next t hEq => exact absurd hEq (hDouble '-' (by decide) hMinus t)
    · next t hEq => exact absurd hEq (hDouble '~' (by decide) hTilde t)
    · rw [hRangeMore]
      exact hAppend

theorem readSet_append {f : Flags} {n : Nat} {s rest : List Char} {found : CharSet}
    (h : readSet f n s = .ok (found, rest)) (hFuel : s.length ≤ n) (extra : Nat) :
    rest.length ≤ s.length ∧
      readSet f (extra + n) (s ++ closing) = .ok (found, rest ++ closing) := by
  unfold readSet at h ⊢
  rcases hOpen : openBracket f n s with ⟨b, after⟩
  rw [hOpen] at h
  change readBrackets f n b [] after = _ at h
  have hSome : after ≠ [] := by
    rintro rfl
    rw [readBrackets_nil] at h
    cases h
  obtain ⟨hShorter, hOpenMore⟩ := openBracket_append hOpen hSome hFuel extra
  obtain ⟨hLength, hMore⟩ := readBrackets_append h (hShorter.trans hFuel) extra
  rw [hOpenMore]
  exact ⟨hLength.trans hShorter, hMore⟩

end Scenarist.Regex
