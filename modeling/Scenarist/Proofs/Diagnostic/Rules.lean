import Scenarist.Proofs.Diagnostic.Kinds
import Scenarist.Proofs.Regex.Language
import Scenarist.Regex.Reader

/-!
# The rules for messages

A rule is written as an expression: what was expected, any text, the mark of what was got with one of
the words of the rule, any text, and a quote.  `Rule.source` is that expression.

* `gets_eq_true_iff`: what it means that a line gets a word.
* `finds_iff`: within a line the expression of a rule is found where the line gets a word of the rule.
* `ruleFor?_eq_none_iff`, `ruleFor?_eq_some_iff`: the rule for a line is the earliest one found, and
  there is one where anything was got.
* `classify_by_first_line`: the first line that got anything decides alone.
-/

namespace Scenarist

namespace Diagnostic

open Regex

/-! ### Lines that get a word -/

/-- A line names what was expected and, behind that, a text in quotes that begins with the word. -/
def Gets (w : String) (line : List Char) : Prop :=
  ∃ a b c d, line = a ++ "expected:".toList ++ (b ++ (gotMark ++ w.toList) ++ (c ++ ['\''] ++ d))

variable {w : String} {line : List Char} {r : Rule}

theorem gets_eq_true_iff : gets w line = true ↔ Gets w line := by
  have hMark : ("got '" ++ w).toList = gotMark ++ w.toList := String.toList_append
  simp only [gets, hMark, inOrder_cons_iff]
  constructor
  · rintro ⟨a, v, rfl, b, x, rfl, c, d, rfl, -⟩
    exact ⟨a, b, c, d, rfl⟩
  · rintro ⟨a, b, c, d, rfl⟩
    exact ⟨a, _, rfl, b, _, rfl, c, d, rfl, rfl⟩

/-- A line that gets a word gets something. -/
theorem Gets.anything (h : Gets w line) : Gets "" line := by
  obtain ⟨a, b, c, d, rfl⟩ := h
  refine ⟨a, b, w.toList ++ c, d, ?_⟩
  simp only [String.toList_empty, List.append_nil, List.append_assoc]

/-! ### The expressions of rules -/

/-- The words of a rule as they are written: one word is itself, several are alternatives. -/
def wordsSource : List String → List Char
  | [w] => w.toList
  | ws => "(?:".toList ++ ("|".intercalate ws).toList ++ [')']

/-- The written expression of a rule. -/
def Rule.source (r : Rule) : List Char :=
  "expected:.*got '".toList ++ wordsSource r.words ++ ".*'".toList

example : rules.map (fun r => String.ofList r.source) = [
    "expected:.*got 'Feature.*'", "expected:.*got '(?:Given|When|Then|And|But).*'",
    "expected:.*got 'Background.*'", "expected:.*got 'Scenario.*'", "expected:.*got 'Given.*'",
    "expected:.*got 'Rule.*'", "expected:.*got '.*'"] := by
  decide +kernel

/-- The expression of a rule finds something in a line. -/
def Rule.Finds (r : Rule) (line : List Char) : Prop :=
  ∃ e, Expression.read r.source = .ok e ∧ (e.captures line).isSome = true

/-- Any text within a line. -/
def anyText : Regex := .star true (.set (.compl (.single '\n')))

/-- One of several words. -/
def wordItems : List String → List Regex
  | [w] => w.toList.map single
  | ws => [choice (ws.map fun w => sequence (w.toList.map single))]

/-- What the expression of a rule reads as. -/
def Rule.regex (r : Rule) : Regex :=
  sequence ("expected:".toList.map single ++ (anyText :: (gotMark.map single ++
    (wordItems r.words ++ (anyText :: ['\''].map single)))))

theorem read_source : ∀ r ∈ rules, Expression.read r.source = .ok ⟨r.regex, []⟩ := by
  decide +kernel

theorem plain_regex : ∀ r ∈ rules, r.regex.plain = true := by decide +kernel

theorem mem_language_anyText {u : List Char} : u ∈ anyText.language ↔ '\n' ∉ u :=
  mem_language_star_set.trans forall_mem_compl_single_iff

theorem mem_language_wordItems {ws : List String} {u : List Char} :
    u ∈ (sequence (wordItems ws)).language ↔ ∃ w ∈ ws, u = w.toList := by
  unfold wordItems
  split
  · next w => simp only [mem_language_text, List.mem_singleton, exists_eq_left]
  · next ws =>
    show u ∈ (choice _).language ↔ _
    simp only [mem_language_choice, List.mem_map, exists_exists_and_eq_and, mem_language_text]

/-- The expression of a rule reads what lies between the two outer marks. -/
theorem mem_language_regex {u : List Char} :
    u ∈ r.regex.language ↔ ∃ w ∈ r.words, ∃ b c, '\n' ∉ b ∧ '\n' ∉ c ∧
      u = "expected:".toList ++ (b ++ (gotMark ++ w.toList) ++ (c ++ ['\''])) := by
  simp only [Rule.regex, language_sequence_append, language_sequence_cons, Language.mem_mul,
    mem_language_text, mem_language_anyText, mem_language_wordItems]
  constructor
  · rintro ⟨_, rfl, _, ⟨b, hb, _, ⟨_, rfl, _, ⟨_, ⟨w, hw, rfl⟩, _, ⟨c, hc, _, rfl, rfl⟩, rfl⟩, rfl⟩,
      rfl⟩, rfl⟩
    exact ⟨w, hw, b, c, hb, hc, by simp only [List.append_assoc]⟩
  · rintro ⟨w, hw, b, c, hb, hc, rfl⟩
    refine ⟨_, rfl, _, ⟨b, hb, _, ⟨_, rfl, _, ⟨_, ⟨w, hw, rfl⟩, _, ⟨c, hc, _, rfl, rfl⟩, rfl⟩, rfl⟩,
      rfl⟩, ?_⟩
    simp only [List.append_assoc]

/-- **Within a line the expression of a rule is found where the line gets a word of the rule.** -/
theorem finds_iff (hr : r ∈ rules) (hLine : '\n' ∉ line) :
    r.Finds line ↔ ∃ w ∈ r.words, Gets w line := by
  have hFound : r.Finds line ↔ (r.regex.captures 0 line).isSome = true := by
    unfold Rule.Finds
    rw [read_source r hr]
    constructor
    · rintro ⟨e, hRead, hSome⟩
      obtain rfl := Except.ok.inj hRead
      exact hSome
    · exact fun hSome => ⟨_, rfl, hSome⟩
  rw [hFound, captures_isSome_iff_of_plain (plain_regex r hr)]
  constructor
  · rintro ⟨a, u, d, rfl, hu⟩
    obtain ⟨w, hw, b, c, -, -, rfl⟩ := mem_language_regex.mp hu
    refine ⟨w, hw, a, b, c, d, ?_⟩
    simp only [List.append_assoc]
  · rintro ⟨w, hw, a, b, c, d, rfl⟩
    simp only [List.mem_append, not_or] at hLine
    refine ⟨a, _, d, ?_, mem_language_regex.mpr ⟨w, hw, b, c, hLine.2.1.1, hLine.2.2.1.1, rfl⟩⟩
    simp only [List.append_assoc]

/-! ### The rule for a line -/

/-- The rule finds something in a line, and no earlier rule does. -/
def Rule.Decides (r : Rule) (line : List Char) : Prop :=
  r.Finds line ∧ ∃ earlier later, rules = earlier ++ r :: later ∧ ∀ q ∈ earlier, ¬ q.Finds line

theorem any_gets_eq_true_iff :
    (r.words.any fun w => gets w line) = true ↔ ∃ w ∈ r.words, Gets w line := by
  simp only [List.any_eq_true, gets_eq_true_iff]

theorem ruleFor?_eq_none_iff : ruleFor? line = none ↔ ¬ Gets "" line := by
  rw [ruleFor?, List.find?_eq_none]
  simp only [any_gets_eq_true_iff]
  constructor
  · intro hNone hGets
    have hLast : ∃ r ∈ rules, "" ∈ r.words := by decide
    obtain ⟨r, hr, hw⟩ := hLast
    exact hNone r hr ⟨"", hw, hGets⟩
  · rintro hNot r - ⟨w, -, hGets⟩
    exact hNot hGets.anything

theorem ruleFor?_eq_some_iff (hLine : '\n' ∉ line) : ruleFor? line = some r ↔ r.Decides line := by
  have hFinds : ∀ q ∈ rules, (q.words.any fun w => gets w line) = true ↔ q.Finds line :=
    fun q hq => any_gets_eq_true_iff.trans (finds_iff hq hLine).symm
  rw [ruleFor?, List.find?_eq_some_iff_append]
  constructor
  · rintro ⟨hHere, earlier, later, hRules, hBefore⟩
    have hr : r ∈ rules := hRules ▸ List.mem_append_right _ List.mem_cons_self
    refine ⟨(hFinds r hr).mp hHere, earlier, later, hRules, fun q hq hFound => ?_⟩
    have hMem : q ∈ rules := hRules ▸ List.mem_append_left _ hq
    have hNot := hBefore q hq
    rw [(hFinds q hMem).mpr hFound] at hNot
    cases hNot
  · rintro ⟨hHere, earlier, later, hRules, hBefore⟩
    have hr : r ∈ rules := hRules ▸ List.mem_append_right _ List.mem_cons_self
    refine ⟨(hFinds r hr).mpr hHere, earlier, later, hRules, fun q hq => ?_⟩
    have hMem : q ∈ rules := hRules ▸ List.mem_append_left _ hq
    rw [Bool.not_eq_true']
    exact Bool.eq_false_iff.mpr fun hFound => hBefore q hq ((hFinds q hMem).mp hFound)

/-- The rule for steps stands behind one that finds every line that it finds. -/
theorem kind_of_ruleFor? (h : ruleFor? line = some r) : r.kind ≠ .step ∧ r.kind ≠ .unknown := by
  have hGets : gets "" line = true := by
    by_contra hNot
    rw [ruleFor?_eq_none_iff.mpr fun hGets => hNot (gets_eq_true_iff.mpr hGets)] at h
    cases h
  have hKind := map_kind_find?_rules (g := fun w => gets w line) hGets
  have hSome : (rules.find? fun r => r.words.any fun w => gets w line) = some r := h
  rw [hSome, Option.map_some, Option.some.injEq] at hKind
  rw [hKind]
  rcases kindIn_mem_or (P := fun w => gets w line = true) beginnings with hMem | hToken
  · exact ⟨fun hEq => absurd (hEq ▸ hMem) (by decide), fun hEq => absurd (hEq ▸ hMem) (by decide)⟩
  · rw [hToken]
    decide

/-! ### The first line -/

theorem Gets.ne_nil (h : Gets w line) : line ≠ [] := by
  obtain ⟨a, b, c, d, rfl⟩ := h
  exact List.append_ne_nil_of_left_ne_nil
    (List.append_ne_nil_of_right_ne_nil a (List.cons_ne_nil _ _)) _

/-- **The first line of a message that got anything decides alone, by the earliest rule that finds
something in it.**  Without such a line the message is passed on.  No message is about a step. -/
theorem classify_by_first_line (raw : String) :
    ((∀ line ∈ Text.lines raw.toList, ¬ Gets "" line) ∧
        classify raw = (.unknown, "Unknown parsing error: " ++ raw) ∨
      ∃ (r : Rule) (line : List Char) (front back : List (List Char)),
        Text.lines raw.toList = front ++ line :: back ∧ (∀ l ∈ front, ¬ Gets "" l) ∧
        Gets "" line ∧ r.Decides line ∧ classify raw = (r.kind, r.message) ∧
        classify raw = classify (String.ofList line)) ∧
      ((classify raw).1 = .unknown ↔ ∀ line ∈ Text.lines raw.toList, ¬ Gets "" line) ∧
      (classify raw).1 ≠ .step := by
  cases hFirst : (Text.lines raw.toList).findSome? ruleFor? with
  | none =>
    have hNone : ∀ line ∈ Text.lines raw.toList, ¬ Gets "" line := fun line hLine =>
      ruleFor?_eq_none_iff.mp (List.findSome?_eq_none_iff.mp hFirst line hLine)
    have hClassify : classify raw = (.unknown, "Unknown parsing error: " ++ raw) := by
      rw [classify, hFirst]
    rw [hClassify]
    exact ⟨.inl ⟨hNone, rfl⟩, iff_of_true rfl hNone, ParseErrorKind.noConfusion⟩
  | some r =>
    obtain ⟨front, line, back, hLines, hRule, hFront⟩ := List.findSome?_eq_some_iff.mp hFirst
    have hMem : line ∈ Text.lines raw.toList := hLines ▸ List.mem_append_right _ List.mem_cons_self
    have hLine : '\n' ∉ line := Text.notMem_of_mem_lines hMem
    have hGets : Gets "" line := by
      by_contra hNot
      rw [ruleFor?_eq_none_iff.mpr hNot] at hRule
      cases hRule
    have hClassify : classify raw = (r.kind, r.message) := by
      rw [classify, hFirst]
    have hAlone : classify (String.ofList line) = (r.kind, r.message) := by
      rw [classify, String.toList_ofList, lines_of_notMem hGets.ne_nil hLine,
        List.findSome?_cons, hRule]
    obtain ⟨hStep, hUnknown⟩ := kind_of_ruleFor? hRule
    rw [hClassify]
    refine ⟨.inr ⟨r, line, front, back, hLines, ?_, hGets, (ruleFor?_eq_some_iff hLine).mp hRule,
      rfl, hAlone.symm⟩, iff_of_false hUnknown fun hNone => hNone line hMem hGets, hStep⟩
    exact fun l hl => ruleFor?_eq_none_iff.mp (hFront l hl)

end Diagnostic

end Scenarist
