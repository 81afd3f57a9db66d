import Scenarist.Proofs.Structure.Violation

/-!
# What a report expects

A report names the token that was refused and what could have stood in its place.

* `walk_refuses`: the token is refused, and the expectation is listed, by the walker behind the
  tokens in front of it.
* `Sound.toClass_mem_expected_iff`: the walkers that list what they refuse.
* `filled_iff_of_run`: the tokens that lead to these walkers.
* `refused_among_expected_iff`: the reports that expect what they refuse, for every text.
-/

namespace Scenarist.Structure

open Walker Text Source

/-! ### Reports and walkers -/

theorem run_take_sub_self (w : Walker) (previous : Option LineKind) (n : Nat)
    (ls : List (List Char × LineKind)) :
    w.run (tokensBehind previous (ls.take (n - n))) = some w := by
  rw [Nat.sub_self, List.take_zero, tokensBehind_nil]
  rfl

/-- **The walker behind the tokens in front of the line of a report refuses the token and lists what
is expected.** -/
theorem walk_refuses {t : SourceText} {v : Violation} {w : Walker} {previous : Option LineKind}
    {n : Nat} {ls : List (List Char × LineKind)} (h : walk t w previous n ls = some v) :
    ∃ m : Walker, w.run (tokensBehind previous (ls.take (v.location.line - n))) = some m ∧
      m.accept? v.token = none ∧ v.expected = m.expected := by
  induction ls generalizing w previous n with
  | nil =>
    rw [walk] at h
    split at h
    · cases h
    · next hRefused =>
      obtain rfl := Option.some.inj h
      exact ⟨w, run_take_sub_self w previous n [], hRefused, rfl⟩
  | cons p ls ih =>
    rcases walk_cons_or w previous p.1 p.2 with ⟨m, hRun, hWalk⟩ | ⟨token, hRefused, _, hWalk⟩
    · rw [hWalk] at h
      obtain ⟨m', hBefore, hRefused, hExpected⟩ := ih h
      refine ⟨m', ?_, hRefused, hExpected⟩
      have hLine := le_line_of_walk h
      have hSucc : v.location.line - n = v.location.line - (n + 1) + 1 := by omega
      rw [hSucc, List.take_succ_cons, hRun, hBefore]
    · rw [hWalk] at h
      obtain rfl := Option.some.inj h
      exact ⟨w, run_take_sub_self w previous n (p :: ls), hRefused, rfl⟩

namespace Walker

variable {w m : Walker} {t : Token} {ts : List Token}

/-! ### The places, one by one -/

def allTokens : List Token :=
  [.feature, .background, .rule, .scenario, .examples, .step, .row, .docString, .tag, .text, .eof]

/-- The walker in a block with nothing left to describe or to serve. -/
def filled (b : Block) : Walker := ⟨b, false, false, false⟩

/-- The walkers that stand at a place in the grammar. -/
def places : List Walker :=
  [start, { start with tagged := true }] ++
    [.feature, .rule, .background, .scenario, .examples].flatMap (fun b =>
      [enter b, { filled b with tagged := true }]) ++
    [filled .background, filled .scenario, filled .examples,
      { filled .background with afterStep := true }, { filled .scenario with afterStep := true }]

theorem Sound.mem_places (hw : w.Sound) : w ∈ places := by
  cases hw with
  | start tagged => cases tagged <;> decide
  | opened b begun | tagged b begun =>
    cases b with
    | start => exact absurd rfl begun
    | _ => decide
  | stepping b hasSteps afterStep => rcases hasSteps with rfl | rfl <;> cases afterStep <;> decide
  | rows => decide

theorem mem_allTokens (t : Token) : t ∈ allTokens := by
  cases t <;> decide

/-! ### Walkers that list what they refuse -/

/-- No text may follow although it is listed: the description of a block is over, no step waits for
its table or doc string, and no tags wait. -/
def Filled (w : Walker) : Prop := w.block ≠ .start ∧ w = filled w.block

instance (w : Walker) : Decidable w.Filled := inferInstanceAs (Decidable (_ ∧ _))

/-- **Nothing but free text is both listed and refused, and it is by the walkers behind what fills a
block.** -/
theorem Sound.toClass_mem_expected_iff (hw : w.Sound) (h : w.accept? t = none) :
    t.toClass ∈ w.expected ↔ t = .text ∧ w.Filled := by
  have hEach : ∀ w ∈ places, ∀ t ∈ allTokens, w.accept? t = none →
      (t.toClass ∈ w.expected ↔ t = .text ∧ w.Filled) := by decide +kernel
  exact hEach w hw.mem_places t (mem_allTokens t) h

/-! ### What fills a block -/

/-- The tokens end in rows of examples. -/
def EndsInExampleRows (ts : List Token) : Prop :=
  ∃ front texts rows, 0 < rows ∧
    ts = front ++ .examples :: (List.replicate texts .text ++ List.replicate rows .row)

theorem run_append (w : Walker) (front back : List Token) :
    w.run (front ++ back) = (w.run front).bind fun m => m.run back :=
  List.foldlM_append ..

/-- The last step of a run, and the walker that takes it. -/
theorem exists_last_step (hts : .eof ∉ ts ++ [t]) (h : start.run (ts ++ [t]) = some w) :
    ∃ m : Walker, (.eof ∉ ts ∧ start.run ts = some m) ∧ m.Sound ∧ t ≠ .eof ∧
      m.accept? t = some w := by
  rw [List.mem_append, List.mem_singleton, not_or] at hts
  rw [run_append] at h
  obtain ⟨m, hRun, hLast⟩ := Option.bind_eq_some_iff.mp h
  rw [run_cons] at hLast
  obtain ⟨n, hAccept, hEnd⟩ := Option.bind_eq_some_iff.mp hLast
  obtain rfl := Option.some.inj hEnd
  exact ⟨m, ⟨hts.1, hRun⟩, .run (.start false) hts.1 hRun, Ne.symm hts.2, hAccept⟩

/-- What leads to the beginning of examples. -/
theorem Sound.of_accept?_enter_examples (hm : m.Sound) (ht : t ≠ .eof)
    (h : m.accept? t = some (enter .examples)) :
    t = .examples ∨ t = .text ∧ m = enter .examples := by
  have hEach : ∀ m ∈ places, ∀ t ∈ allTokens, t ≠ .eof → m.accept? t = some (enter .examples) →
      t = .examples ∨ t = .text ∧ m = enter .examples := by decide +kernel
  exact hEach m hm.mem_places t (mem_allTokens t) ht h

/-- What leads to a block with nothing left to describe or to serve. -/
theorem Sound.of_accept?_filled {b : Block} (hm : m.Sound) (ht : t ≠ .eof)
    (h : m.accept? t = some (filled b)) :
    if b = .examples then t = .row ∧ (m = enter .examples ∨ m = filled .examples)
    else t = .docString := by
  have hEach : ∀ m ∈ places, ∀ t ∈ allTokens, t ≠ .eof → m.accept? t = some (filled b) →
      if b = .examples then t = .row ∧ (m = enter .examples ∨ m = filled .examples)
      else t = .docString := by cases b <;> decide +kernel
  exact hEach m hm.mem_places t (mem_allTokens t) ht h

theorem Sound.accept?_examples (hm : m.Sound) :
    m.accept? .examples = none ∨ m.accept? .examples = some (enter .examples) := by
  have hEach : ∀ m ∈ places, m.accept? .examples = none ∨
      m.accept? .examples = some (enter .examples) := by decide +kernel
  exact hEach m hm.mem_places

theorem Sound.accept?_docString (hm : m.Sound) :
    m.accept? .docString = none ∨
      m.accept? .docString = some (filled m.block) ∧ m.block ≠ .start := by
  have hEach : ∀ m ∈ places, m.accept? .docString = none ∨
      m.accept? .docString = some (filled m.block) ∧ m.block ≠ .start := by decide +kernel
  exact hEach m hm.mem_places

theorem exists_of_run_enter_examples (hts : .eof ∉ ts) (h : start.run ts = some (enter .examples)) :
    ∃ front texts, ts = front ++ .examples :: List.replicate texts .text := by
  induction ts using List.reverseRecOn with
  | nil => cases h
  | append_singleton ts t ih =>
    obtain ⟨m, ⟨hFront, hRun⟩, hm, ht, hAccept⟩ := exists_last_step hts h
    rcases hm.of_accept?_enter_examples ht hAccept with rfl | ⟨rfl, rfl⟩
    · exact ⟨ts, 0, rfl⟩
    · obtain ⟨front, texts, rfl⟩ := ih hFront hRun
      refine ⟨front, texts + 1, ?_⟩
      rw [List.append_assoc, List.cons_append, List.replicate_succ']

theorem endsInExampleRows_of_run_filled (hts : .eof ∉ ts)
    (h : start.run ts = some (filled .examples)) : EndsInExampleRows ts := by
  induction ts using List.reverseRecOn with
  | nil => cases h
  | append_singleton ts t ih =>
    obtain ⟨m, ⟨hFront, hRun⟩, hm, ht, hAccept⟩ := exists_last_step hts h
    obtain ⟨rfl, rfl | rfl⟩ := hm.of_accept?_filled ht hAccept
    · obtain ⟨front, texts, rfl⟩ := exists_of_run_enter_examples hFront hRun
      refine ⟨front, texts, 1, Nat.one_pos, ?_⟩
      rw [List.append_assoc, List.cons_append]
      rfl
    · obtain ⟨front, texts, rows, _, rfl⟩ := ih hFront hRun
      refine ⟨front, texts, rows + 1, Nat.succ_pos rows, ?_⟩
      rw [List.append_assoc, List.cons_append, List.append_assoc, List.replicate_succ']

theorem run_replicate (h : w.accept? t = some w) (n : Nat) :
    w.run (List.replicate n t) = some w := by
  induction n with
  | zero => rfl
  | succ n ih => rw [List.replicate_succ, run_cons, h, Option.bind_some, ih]

theorem run_of_endsInExampleRows (hts : .eof ∉ ts) (h : EndsInExampleRows ts)
    (hRun : start.run ts = some w) : w = filled .examples := by
  obtain ⟨front, texts, rows, hRows, rfl⟩ := h
  obtain ⟨rows, rfl⟩ := Nat.exists_eq_succ_of_ne_zero (Nat.ne_of_gt hRows)
  rw [List.mem_append, not_or] at hts
  rw [run_append] at hRun
  obtain ⟨m, hFront, hBack⟩ := Option.bind_eq_some_iff.mp hRun
  have hm : m.Sound := .run (.start false) hts.1 hFront
  have hTexts : (enter .examples).run (List.replicate texts .text) = some (enter .examples) :=
    run_replicate rfl texts
  have hRest : (filled .examples).run (List.replicate rows .row) = some (filled .examples) :=
    run_replicate rfl rows
  have hFirst : (enter .examples).accept? .row = some (filled .examples) := rfl
  rcases hm.accept?_examples with hRefused | hEnter
  · rw [run_cons, hRefused] at hBack
    cases hBack
  · rw [run_cons, hEnter, Option.bind_some, run_append, hTexts, Option.bind_some,
      List.replicate_succ, run_cons, hFirst, Option.bind_some, hRest] at hBack
    exact (Option.some.inj hBack).symm

/-- **The walkers that list what they refuse stand behind a doc string and behind the rows of
examples.** -/
theorem filled_iff_of_run (hts : .eof ∉ ts) (hRun : start.run ts = some w) :
    w.Filled ↔ ts.getLast? = some .docString ∨ EndsInExampleRows ts := by
  constructor
  · rintro ⟨hBegun, hFilled⟩
    rcases List.eq_nil_or_concat ts with rfl | ⟨front, t, rfl⟩
    · obtain rfl := Option.some.inj hRun
      exact absurd rfl hBegun
    by_cases hExamples : w.block = .examples
    · rw [hFilled, hExamples] at hRun
      exact .inr (endsInExampleRows_of_run_filled hts hRun)
    · rw [List.concat_eq_append] at hRun hts ⊢
      obtain ⟨m, _, hm, ht, hAccept⟩ := exists_last_step hts hRun
      rw [hFilled] at hAccept
      have hLast := hm.of_accept?_filled ht hAccept
      rw [if_neg hExamples] at hLast
      rw [List.getLast?_concat, hLast]
      exact .inl rfl
  · rintro (hLast | hRows)
    · obtain ⟨front, rfl⟩ := List.getLast?_eq_some_iff.mp hLast
      obtain ⟨m, _, hm, _, hAccept⟩ := exists_last_step hts hRun
      rcases hm.accept?_docString with hRefused | ⟨hServed, hBegun⟩
      · rw [hRefused] at hAccept
        cases hAccept
      · obtain rfl := Option.some.inj (hServed.symm.trans hAccept)
        exact ⟨hBegun, rfl⟩
    · obtain rfl := run_of_endsInExampleRows hts hRows hRun
      exact ⟨by decide, rfl⟩

end Walker

/-! ### Whole files -/

/-- **A report expects what it refuses exactly where free text stands behind a doc string or behind
the rows of examples.** -/
theorem refused_among_expected_iff {s : List Char} {v : Violation}
    (h : firstViolation (.ofText s) = some v) :
    v.token.toClass ∈ v.expected ↔ v.token = .text ∧
      ((tokensUpTo (.ofText s) (v.location.line - 1)).getLast? = some .docString ∨
        EndsInExampleRows (tokensUpTo (.ofText s) (v.location.line - 1))) := by
  obtain ⟨m, hRun, hRefused, hExpected⟩ := walk_refuses h
  have hEof : .eof ∉ tokensUpTo (.ofText s) (v.location.line - 1) := by
    rw [tokensUpTo_eq]
    exact eof_notMem_tokensBehind
  have hm : m.Sound := .run (.start false) hEof hRun
  rw [hExpected, hm.toClass_mem_expected_iff hRefused, filled_iff_of_run hEof hRun]

/-- Free text behind the rows of examples. -/
def textBehindRows : List Char :=
  ("Feature: a\n  Scenario Outline: b\n    Given <x>\n    Examples:\n      | x |\n" ++
    "    loose words\n").toList

theorem refused_among_expected_behind_rows : ∃ v,
    firstViolation (.ofText textBehindRows) = some v ∧ v.token.toClass ∈ v.expected := by
  have hReport : firstViolation (.ofText textBehindRows) =
      some ⟨⟨6, 5⟩, .text, (filled .examples).expected, "loose words"⟩ := by decide +kernel
  have hTokens : tokensUpTo (.ofText textBehindRows) 5 =
      [.feature, .scenario, .step, .examples, .row] := by decide +kernel
  have hRows : EndsInExampleRows (tokensUpTo (.ofText textBehindRows) 5) :=
    ⟨[.feature, .scenario, .step], 0, 1, by decide, hTokens⟩
  exact ⟨_, hReport, (refused_among_expected_iff hReport).mpr ⟨rfl, .inr hRows⟩⟩

/-- Free text behind the doc string of a step. -/
def textBehindDocString : List Char :=
  ("Feature: a\n  Scenario: b\n    Given c\n      \"\"\"\n      x\n      \"\"\"\n" ++
    "    loose words\n").toList

/-- **Not every report leaves out what it refuses**: text behind a doc string is refused by a report
that expects it. -/
theorem text_behind_doc_string_among_expected :
    ¬ ∀ (s : List Char) (v : Violation), firstViolation (.ofText s) = some v →
      v.token.toClass ∉ v.expected := by
  intro hAll
  have hReport : firstViolation (.ofText textBehindDocString) =
      some ⟨⟨7, 5⟩, .text, (filled .scenario).expected, "loose words"⟩ := by
    decide +kernel
  have hListed : Token.text.toClass ∈ (filled .scenario).expected := by decide
  exact hAll textBehindDocString _ hReport hListed

end Scenarist.Structure
