import Scenarist.Proofs.Structure.Acceptance

/-!
# The first violation of the grammar

The lines of a file give a sequence of tokens, `tokensOf`.  What `firstViolation` reports is the
first line that makes the sequence so far no beginning of a document, or the line behind all others
when the whole sequence is a beginning only.

* `walk_eq_none_iff`, `walk_eq_some`: going over lines against going over their tokens.
* `walk_eq_of_take_eq`: a report depends on the lines up to the one that it names.
* `got_of_walk`: a report gives the text of the line that it names.
* `firstViolation_reports`: the three together, for every text.
-/

namespace Scenarist.Structure

open Grammar Walker Text Source

/-! ### The tokens of lines -/

/-- The tokens of lines with their kinds.  Doc string lines that follow one another count once. -/
def tokensOf : List (List Char × LineKind) → List Token
  | [] => []
  | (_, .docString) :: rest => .docString :: tokensOf (rest.dropWhile fun p => p.2 = .docString)
  | (line, kind) :: rest => (token? kind line).toList ++ tokensOf rest
termination_by ls => ls.length
decreasing_by
  · exact Nat.lt_succ_of_le (List.dropWhile_sublist _).length_le
  · exact Nat.lt_succ_self _

/-- The tokens of lines that follow a line of a kind. -/
def tokensBehind (previous : Option LineKind) (ls : List (List Char × LineKind)) : List Token :=
  tokensOf (if previous = some .docString then ls.dropWhile fun p => p.2 = .docString else ls)

/-- The token that a line adds behind a line of a kind. -/
def lineToken? (previous : Option LineKind) (line : List Char) (kind : LineKind) : Option Token :=
  if kind = .docString ∧ previous = some .docString then none else token? kind line

variable {w : Walker} {previous : Option LineKind} {kind : LineKind} {line : List Char}
  {ls rest : List (List Char × LineKind)} {n : Nat}

theorem tokensBehind_nil : tokensBehind previous [] = [] := by
  unfold tokensBehind
  split <;> exact tokensOf.eq_1

theorem tokensBehind_cons :
    tokensBehind previous ((line, kind) :: rest) =
      (lineToken? previous line kind).toList ++ tokensBehind (some kind) rest := by
  by_cases hKind : kind = .docString
  · subst hKind
    by_cases hPrevious : previous = some .docString
    · simp only [tokensBehind, lineToken?, hPrevious, and_self, if_true, decide_true,
        List.dropWhile_cons_of_pos, Option.toList_none, List.nil_append]
    · simp only [tokensBehind, lineToken?, hPrevious, and_false, if_false, if_true, token?,
        Option.toList_some, List.singleton_append]
      rw [tokensOf]
  · have hRest :
        tokensBehind previous ((line, kind) :: rest) = tokensOf ((line, kind) :: rest) := by
      simp only [tokensBehind, hKind, decide_false, Bool.false_eq_true, not_false_eq_true,
        List.dropWhile_cons_of_neg, ite_self]
    have hNext : tokensBehind (some kind) rest = tokensOf rest := by
      simp only [tokensBehind, Option.some.injEq, hKind, if_false]
    rw [hRest, hNext, tokensOf, lineToken?, if_neg (fun h => hKind h.1)]
    exact hKind

/-- A line that is no step and no header is text. -/
theorem plainToken_ne {token : Token} (hStep : token ≠ .step) (hText : token ≠ .text)
    (hHeaders : ∀ h ∈ headers, h.2 ≠ token) : plainToken line ≠ token := by
  intro h
  unfold plainToken at h
  dsimp only at h
  split at h
  · exact hStep h.symm
  · split at h
    · exact hText h.symm
    · split at h
      · next hFind => exact hHeaders _ (List.mem_of_find?_eq_some hFind) h
      · exact hText h.symm

/-- No line has the token of the end. -/
theorem token?_ne_eof : token? kind line ≠ some .eof := by
  cases kind with
  | other =>
    intro h
    exact plainToken_ne (by decide) (by decide) (by decide) (Option.some.inj h)
  | _ => simp [token?]

theorem eof_notMem_tokensBehind : .eof ∉ tokensBehind previous ls := by
  induction ls generalizing previous with
  | nil => rw [tokensBehind_nil]; exact List.not_mem_nil
  | cons p rest ih =>
    obtain ⟨line, kind⟩ := p
    rw [tokensBehind_cons, List.mem_append, not_or]
    refine ⟨fun h => ?_, ih⟩
    have hLine : lineToken? previous line kind = some .eof := Option.mem_toList.mp h
    unfold lineToken? at hLine
    split at hLine
    · cases hLine
    · exact token?_ne_eof hLine

/-! ### Going over lines -/

/-- A line leads to a walker, from which going over the lines and over their tokens go on alike, or
is refused by both. -/
theorem walk_cons_or (w : Walker) (previous : Option LineKind) (line : List Char)
    (kind : LineKind) :
    (∃ m : Walker, (∀ ls, w.run (tokensBehind previous ((line, kind) :: ls)) =
        m.run (tokensBehind (some kind) ls)) ∧
      ∀ t n ls, walk t w previous n ((line, kind) :: ls) = walk t m (some kind) (n + 1) ls) ∨
    ∃ token, w.accept? token = none ∧
      (∀ ls, w.run (tokensBehind previous ((line, kind) :: ls)) = none) ∧
      ∀ t n ls, walk t w previous n ((line, kind) :: ls) =
        some ⟨t.startOf n, token, w.expected, String.ofList (trim line)⟩ := by
  by_cases hContinues : kind = .docString ∧ previous = some .docString
  · refine .inl ⟨w, fun ls => ?_, fun t n ls => ?_⟩
    · rw [tokensBehind_cons, lineToken?, if_pos hContinues, Option.toList_none, List.nil_append]
    · rw [walk, if_pos hContinues]
  · cases hToken : token? kind line with
    | none =>
      refine .inl ⟨w, fun ls => ?_, fun t n ls => ?_⟩
      · rw [tokensBehind_cons, lineToken?, if_neg hContinues, hToken, Option.toList_none,
          List.nil_append]
      · rw [walk, if_neg hContinues, hToken]
    | some token =>
      have hRun : ∀ ls, w.run (tokensBehind previous ((line, kind) :: ls)) =
          (w.accept? token).bind fun m => m.run (tokensBehind (some kind) ls) := by
        intro ls
        rw [tokensBehind_cons, lineToken?, if_neg hContinues, hToken, Option.toList_some,
          List.singleton_append, run_cons]
      cases hAccept : w.accept? token with
      | none =>
        refine .inr ⟨token, hAccept, fun ls => by rw [hRun, hAccept, Option.bind_none],
          fun t n ls => ?_⟩
        rw [walk, if_neg hContinues, hToken]
        dsimp only
        rw [hAccept]
      | some m =>
        refine .inl ⟨m, fun ls => by rw [hRun, hAccept, Option.bind_some], fun t n ls => ?_⟩
        rw [walk, if_neg hContinues, hToken]
        dsimp only
        rw [hAccept]

/-- Nothing is reported when no token is refused and no tags wait at the end. -/
theorem walk_eq_none_iff (t : SourceText) :
    walk t w previous n ls = none ↔
      ∃ w', w.run (tokensBehind previous ls) = some w' ∧ w'.tagged = false := by
  induction ls generalizing w previous n with
  | nil =>
    have hRun : (∃ w', w.run [] = some w' ∧ w'.tagged = false) ↔ w.tagged = false :=
      ⟨fun ⟨_, hw, h⟩ => Option.some.inj hw ▸ h, fun h => ⟨w, rfl, h⟩⟩
    rw [walk, accept?_eof, tokensBehind_nil, hRun]
    cases w.tagged with
    | true => exact ⟨fun h => (by cases h), fun h => (by cases h)⟩
    | false => exact ⟨fun _ => rfl, fun _ => rfl⟩
  | cons p ls ih =>
    rcases walk_cons_or w previous p.1 p.2 with ⟨m, hRun, hWalk⟩ | ⟨token, _, hRun, hWalk⟩
    · rw [hWalk, hRun, ih]
    · rw [hWalk, hRun]
      exact ⟨fun h => (by cases h), fun ⟨_, h, _⟩ => (by cases h)⟩

/-- A report names the line of the first token that is refused, or the line behind all others when
tags wait there. -/
theorem walk_eq_some {t : SourceText} {v : Violation} (h : walk t w previous n ls = some v) :
    (∃ k < ls.length, v.location.line = n + k ∧
      (∀ j ≤ k, ∃ w', w.run (tokensBehind previous (ls.take j)) = some w') ∧
      w.run (tokensBehind previous (ls.take (k + 1))) = none) ∨
    (v.location.line = n + ls.length ∧
      ∃ w', w.run (tokensBehind previous ls) = some w' ∧ w'.tagged = true) := by
  induction ls generalizing w previous n with
  | nil =>
    rw [walk, accept?_eof] at h
    cases hTagged : w.tagged with
    | false =>
      rw [hTagged] at h
      cases h
    | true =>
      rw [hTagged] at h
      obtain rfl := Option.some.inj h
      exact .inr ⟨rfl, w, by rw [tokensBehind_nil]; rfl, hTagged⟩
  | cons p ls ih =>
    have hNone : ∃ w', w.run (tokensBehind previous ((p :: ls).take 0)) = some w' :=
      ⟨w, by rw [List.take_zero, tokensBehind_nil]; rfl⟩
    rcases walk_cons_or w previous p.1 p.2 with ⟨m, hRun, hWalk⟩ | ⟨token, _, hRun, hWalk⟩
    · rw [hWalk] at h
      rcases ih h with ⟨k, hk, hLine, hSome, hRefused⟩ | ⟨hLine, w', hEnd, hTagged⟩
      · refine .inl ⟨k + 1, Nat.succ_lt_succ hk, by omega, fun j hj => ?_, ?_⟩
        · cases j with
          | zero => exact hNone
          | succ j =>
            rw [List.take_succ_cons, hRun]
            exact hSome j (Nat.le_of_succ_le_succ hj)
        · rw [List.take_succ_cons, hRun]
          exact hRefused
      · refine .inr ⟨?_, w', by rw [hRun]; exact hEnd, hTagged⟩
        rw [List.length_cons]
        omega
    · rw [hWalk] at h
      obtain rfl := Option.some.inj h
      refine .inl ⟨0, Nat.succ_pos _, rfl, fun j hj => ?_, ?_⟩
      · obtain rfl := Nat.le_zero.mp hj
        exact hNone
      · rw [List.take_succ_cons, hRun]

theorem le_line_of_walk {t : SourceText} {v : Violation} (h : walk t w previous n ls = some v) :
    n ≤ v.location.line := by
  rcases walk_eq_some h with ⟨k, _, hLine, _⟩ | ⟨hLine, _⟩ <;> omega

/-- **A report depends on the lines up to the one that it names.** -/
theorem walk_eq_of_take_eq {t t' : SourceText} {v : Violation}
    {ls' : List (List Char × LineKind)} (h : walk t w previous n ls = some v)
    (hTake : ls'.take (v.location.line + 1 - n) = ls.take (v.location.line + 1 - n))
    (hStart : ∀ k ≤ v.location.line, t'.startOf k = t.startOf k) :
    walk t' w previous n ls' = some v := by
  induction ls generalizing w previous n ls' with
  | nil =>
    have hLine : v.location.line = n := by
      rcases walk_eq_some h with ⟨k, hk, _⟩ | ⟨hLine, _⟩
      · exact absurd hk (Nat.not_lt_zero k)
      · exact hLine
    rw [hLine, Nat.add_sub_cancel_left, List.take_nil] at hTake
    obtain rfl : ls' = [] := by
      cases ls' with
      | nil => rfl
      | cons p ls' => cases hTake
    exact h
  | cons p ls ih =>
    have hLine : n ≤ v.location.line := le_line_of_walk h
    have hSucc : v.location.line + 1 - n = v.location.line - n + 1 := by omega
    rw [hSucc, List.take_succ_cons] at hTake
    cases ls' with
    | nil => cases hTake
    | cons p' ls' =>
      rw [List.take_succ_cons] at hTake
      obtain ⟨rfl, hTail⟩ := List.cons.inj hTake
      rcases walk_cons_or w previous p'.1 p'.2 with ⟨m, _, hWalk⟩ | ⟨token, _, _, hWalk⟩
      · rw [hWalk] at h ⊢
        exact ih h (by rw [Nat.add_sub_add_right]; exact hTail)
      · rw [hWalk] at h ⊢
        obtain rfl := Option.some.inj h
        rw [hStart n (Nat.le_refl n)]

/-- A report gives the text of the line that it names, without the blanks around it. -/
theorem got_of_walk {t : SourceText} {v : Violation} (h : walk t w previous n ls = some v)
    (hLines : ∀ k, t.line? (n + k) = (ls[k]?).map (·.1)) :
    v.got = String.ofList (trim (t.lineAt v.location.line)) := by
  induction ls generalizing w previous n with
  | nil =>
    have hNone : t.line? n = none := hLines 0
    rw [walk] at h
    split at h
    · cases h
    · obtain rfl := Option.some.inj h
      rw [SourceText.lineAt, hNone]
      rfl
  | cons p ls ih =>
    rcases walk_cons_or w previous p.1 p.2 with ⟨m, _, hWalk⟩ | ⟨token, _, _, hWalk⟩
    · rw [hWalk] at h
      refine ih h fun k => ?_
      have hNext := hLines (k + 1)
      rwa [List.getElem?_cons_succ, ← Nat.add_assoc, Nat.add_right_comm] at hNext
    · rw [hWalk] at h
      obtain rfl := Option.some.inj h
      have hLine : t.line? n = some p.1 := hLines 0
      rw [SourceText.startOf, SourceText.lineAt, hLine]
      rfl

/-! ### Whole files -/

theorem take_kindsFrom (d : Option (List Char)) (ls : List (List Char)) (n : Nat) :
    (kindsFrom d ls).take n = kindsFrom d (ls.take n) := by
  induction ls generalizing d n with
  | nil => cases d <;> rw [List.take_nil, kindsFrom, List.take_nil]
  | cons line ls ih =>
    cases n with
    | zero => cases d <;> rfl
    | succ n =>
      rw [List.take_succ_cons]
      cases d with
      | some d => rw [kindsFrom, kindsFrom, List.take_succ_cons, ih]
      | none =>
        rw [kindsFrom, kindsFrom]
        split <;> rw [List.take_succ_cons, ih]

theorem length_kindsFrom (d : Option (List Char)) (ls : List (List Char)) :
    (kindsFrom d ls).length = ls.length := by
  induction ls generalizing d with
  | nil => cases d <;> rfl
  | cons line ls ih =>
    cases d with
    | some d => rw [kindsFrom, List.length_cons, ih, List.length_cons]
    | none =>
      rw [kindsFrom]
      split <;> rw [List.length_cons, ih, List.length_cons]

/-- The tokens of the first lines of a file. -/
def tokensUpTo (t : SourceText) (n : Nat) : List Token := tokensOf ((t.lines.zip t.kinds).take n)

theorem tokensUpTo_eq (t : SourceText) (n : Nat) :
    tokensUpTo t n = tokensBehind none ((t.lines.zip t.kinds).take n) := rfl

/-- Files that agree in their first lines agree in the kinds of these lines. -/
theorem take_zip_kinds {ls ls' : List (List Char)} {n : Nat} (h : ls'.take n = ls.take n) :
    (ls'.zip (kindsFrom none ls')).take n = (ls.zip (kindsFrom none ls)).take n := by
  simp only [List.zip, List.take_zipWith, take_kindsFrom, h]

theorem startOf_eq_of_take_eq {ls ls' : List (List Char)} {n k : Nat} (h : ls'.take n = ls.take n)
    (hk : k ≤ n) : (SourceText.ofLines ls').startOf k = (SourceText.ofLines ls).startOf k := by
  have hLine : (SourceText.ofLines ls').line? k = (SourceText.ofLines ls).line? k := by
    cases k with
    | zero => rfl
    | succ k =>
      show ls'[k]? = ls[k]?
      rw [← List.getElem?_take_of_lt hk, h, List.getElem?_take_of_lt hk]
  rw [SourceText.startOf, SourceText.startOf, SourceText.lineAt, SourceText.lineAt, hLine]

theorem got_of_firstViolation {s : List Char} {v : Violation}
    (h : firstViolation (.ofText s) = some v) :
    v.got = String.ofList (trim ((SourceText.ofText s).lineAt v.location.line)) := by
  refine got_of_walk h fun k => ?_
  have hLines : ((SourceText.ofText s).lines.zip (SourceText.ofText s).kinds).map (·.1) =
      (SourceText.ofText s).lines :=
    List.map_fst_zip (Nat.le_of_eq (length_kindsFrom none (linesOf s)).symm)
  rw [Nat.add_comm, ← List.getElem?_map, hLines]
  rfl

/-- **The first violation of the grammar is reported, where there is one.**  Nothing is reported
when the tokens of the lines are a document.  Else the report names the first line that makes the
tokens so far no beginning of a document, or the line behind all others when they are a beginning
that ends in tags; and it is the same for every text with the same lines up to the one that it
names. -/
theorem firstViolation_reports (s : List Char) :
    (firstViolation (.ofText s) = none ↔
      tokensUpTo (.ofText s) (SourceText.ofText s).count ∈ document) ∧
    ∀ v, firstViolation (.ofText s) = some v →
      ((v.location.line ≤ (SourceText.ofText s).count ∧
          (∀ k < v.location.line, Viable (tokensUpTo (.ofText s) k)) ∧
          ¬ Viable (tokensUpTo (.ofText s) v.location.line)) ∨
        (v.location.line = (SourceText.ofText s).count + 1 ∧
          Viable (tokensUpTo (.ofText s) (SourceText.ofText s).count) ∧
          tokensUpTo (.ofText s) (SourceText.ofText s).count ∉ document ∧
          (tokensUpTo (.ofText s) (SourceText.ofText s).count).getLast? = some .tag)) ∧
      ∀ s', (linesOf s').take v.location.line = (linesOf s).take v.location.line →
        firstViolation (.ofText s') = some v := by
  have hCount : ((linesOf s).zip (kindsFrom none (linesOf s))).length =
      (SourceText.ofText s).count := by
    rw [List.length_zip, length_kindsFrom, Nat.min_self]
    rfl
  have hWhole : tokensUpTo (.ofText s) (SourceText.ofText s).count =
      tokensBehind none ((linesOf s).zip (kindsFrom none (linesOf s))) := by
    rw [tokensUpTo_eq, ← hCount]
    exact congrArg (tokensBehind none) List.take_length
  refine ⟨?_, fun v hReport => ⟨?_, fun s' hLines => ?_⟩⟩
  · rw [hWhole, mem_document_iff eof_notMem_tokensBehind]
    exact walk_eq_none_iff _
  · rcases walk_eq_some hReport with ⟨k, hk, hLine, hSome, hRefused⟩ | ⟨hLine, w, hRun, hTagged⟩
    · have hSame : v.location.line = k + 1 := by omega
      refine .inl ⟨?_, fun j hj => ?_, ?_⟩
      · rw [hSame, ← hCount]
        exact hk
      · exact (viable_iff eof_notMem_tokensBehind).mpr (hSome j (by omega))
      · rw [hSame, tokensUpTo_eq, viable_iff eof_notMem_tokensBehind]
        rintro ⟨w, hw⟩
        rw [show start.run _ = none from hRefused] at hw
        cases hw
    · refine .inr ⟨?_, ?_, ?_, ?_⟩
      · rw [hLine, Nat.add_comm, ← hCount]
        rfl
      · rw [hWhole]
        exact (viable_iff eof_notMem_tokensBehind).mpr ⟨w, hRun⟩
      · rw [hWhole, mem_document_iff eof_notMem_tokensBehind]
        rintro ⟨w', hRun', hUntagged⟩
        obtain rfl : w = w' := Option.some.inj (Eq.trans (Eq.symm hRun) hRun')
        rw [hTagged] at hUntagged
        cases hUntagged
      · rw [hWhole]
        exact getLast?_of_run_tagged eof_notMem_tokensBehind hRun hTagged
  · refine walk_eq_of_take_eq hReport ?_ fun k hk => startOf_eq_of_take_eq hLines hk
    rw [Nat.add_sub_cancel]
    exact take_zip_kinds hLines

end Scenarist.Structure
