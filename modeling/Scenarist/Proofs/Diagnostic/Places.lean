import Scenarist.Parser
import Scenarist.Proofs.Structure.Violation
import Scenarist.Proofs.Text.Lines

/-!
# Where a text is rejected

A fault tells the place of a rejection in its location, in its message, by a line number and by the
text of the line, which it takes from two copies of the text.

* `trim_sourceLine`: the copies agree on every line.
* `exists_locateFailure`: what is written for a rejection with a place.
* `parse_tells_place`: the four agree for every text and every grammar.
-/

namespace Scenarist

open Text GrammarEngine

/-- A fault tells one place in its location, its message, its line number and the text of the
line. -/
structure GrammarFault.TellsPlace (f : GrammarFault) (source : List Char) (l : Location)
    (expected got : String) : Prop where
  locations : f.engine.locations = [l]
  message : f.engine.message = s!"({l.line}:{l.column}): expected: {expected}, got '{got}'"
  line : f.line = l.line
  lineContent : f.lineContent = String.ofList (FeatureParser.sourceLine source l.line)
  scanned : got.toList = trim ((scan source).lineAt l.line)
  content : got.toList = trim f.lineContent.toList
  past : (scan source).count < l.line → got = "" ∧ f.lineContent = ""

/-! ### Two copies of a text -/

theorem terminated_eq (source : List Char) :
    terminated source = source ∨ terminated source = source ++ ['\n'] := by
  unfold terminated
  split
  · exact .inl rfl
  · exact .inr rfl

/-- **Blanks aside, the text that is parsed and the text that is reported have the same lines.** -/
theorem trim_sourceLine (source : List Char) (n : Nat) :
    trim (FeatureParser.sourceLine source n) = trim ((scan source).lineAt n) := by
  cases n with
  | zero => rfl
  | succ n =>
    have hScan : (scan source).lineAt (n + 1) =
        ((Source.linesOf (terminated source))[n]?).getD [] := rfl
    rw [hScan, FeatureParser.sourceLine]
    rcases terminated_eq source with h | h
    · rw [h]
    · rw [h, trim_line_concat]

theorem sourceLine_of_past {source : List Char} {n : Nat} (h : (scan source).count < n) :
    FeatureParser.sourceLine source n = [] := by
  cases n with
  | zero => rfl
  | succ n =>
    have hCount : (Source.linesOf source).length ≤ (scan source).count := by
      show _ ≤ (Source.linesOf (terminated source)).length
      rcases terminated_eq source with h | h
      · rw [h]
      · rw [h]
        exact length_linesOf_le source
    rw [FeatureParser.sourceLine, List.getElem?_eq_none (by omega)]
    rfl

/-! ### Failures with a place -/

/-- A rejection has a place when the order of blocks is violated or the grammar reports one. -/
def HasPlace (t : SourceText) (language report : String) : Prop :=
  (violation? t language).isSome ∨ (Diagnostic.place? report).isSome

/-- What is written for a rejection with a place. -/
theorem exists_locateFailure {source : List Char} {language report : String}
    (h : HasPlace (scan source) language report) : ∃ l expected,
      locateFailure (scan source) language report =
        .at_ l expected (String.ofList (trim ((scan source).lineAt l.line))) := by
  unfold locateFailure
  split
  · next v hViolation =>
    unfold violation? at hViolation
    split at hViolation
    · refine ⟨v.location, ", ".intercalate (v.expected.map Structure.TokenClass.label), ?_⟩
      rw [Structure.Violation.failure, Structure.got_of_firstViolation hViolation]
      rfl
    · cases hViolation
  · next hNone =>
    rcases h with h | h
    · rw [hNone] at h
      cases h
    · obtain ⟨l, hPlace⟩ := Option.isSome_iff_exists.mp h
      refine ⟨settle (scan source) l, Diagnostic.expectation report, ?_⟩
      rw [reportedFailure, hPlace]

/-- A fault that is made of such a failure tells its place. -/
theorem tellsPlace_faultOf (source : List Char) (filename : String) (l : Location)
    (expected : String) :
    (FeatureParser.faultOf source filename (.at_ l expected
      (String.ofList (trim ((scan source).lineAt l.line))))).TellsPlace source l expected
      (String.ofList (trim ((scan source).lineAt l.line))) where
  locations := rfl
  message := rfl
  line := rfl
  lineContent := rfl
  scanned := String.toList_ofList
  content := by
    show _ = trim (String.ofList (FeatureParser.sourceLine source l.line)).toList
    rw [String.toList_ofList, String.toList_ofList, trim_sourceLine]
  past := by
    intro hPast
    have hEmpty := sourceLine_of_past hPast
    have hSame := trim_sourceLine source l.line
    rw [hEmpty] at hSame
    refine ⟨by rw [← hSame]; rfl, ?_⟩
    show String.ofList (FeatureParser.sourceLine source l.line) = ""
    rw [hEmpty]

/-! ### Parsing -/

theorem parse_of_rejected {read : FeatureReader} {config : ParserConfig} {source : List Char}
    {d : Dialect} {report : String}
    (hDialect : Dialect.ofName? (languageOf (scan source) config.language) = some d)
    (hRejected : read d (terminated source) = .error report) (filename : String) :
    FeatureParser.parse ⟨config, ofReader read⟩ source filename =
      .error (.grammar (FeatureParser.faultOf source filename
        (locateFailure (scan source) (languageOf (scan source) config.language) report))) := by
  have hEngine : ofReader read source config.language =
      .error (locateFailure (scan source) (languageOf (scan source) config.language) report) := by
    unfold ofReader
    simp only [hDialect, hRejected]
  rw [FeatureParser.parse]
  dsimp only
  rw [hEngine]

/-- **The places that a fault tells agree**, for every text that a grammar rejects with a place. -/
theorem parse_tells_place (read : FeatureReader) (config : ParserConfig) (source : List Char)
    (filename : String) {d : Dialect} {report : String}
    (hDialect : Dialect.ofName? (languageOf (scan source) config.language) = some d)
    (hRejected : read d (terminated source) = .error report)
    (hPlace : HasPlace (scan source) (languageOf (scan source) config.language) report) :
    ∃ f l expected got, FeatureParser.parse ⟨config, ofReader read⟩ source filename =
        .error (.grammar f) ∧ f.TellsPlace source l expected got := by
  obtain ⟨l, expected, hFailure⟩ := exists_locateFailure hPlace
  refine ⟨_, l, expected, _, ?_, tellsPlace_faultOf source filename l expected⟩
  rw [parse_of_rejected hDialect hRejected, hFailure]

/-- The report of a reader that rejects a text. -/
def report? {α : Type} : Except String α → Option String
  | .error report => some report
  | .ok _ => none

theorem report?_eq_some_iff {α : Type} {r : Except String α} {report : String} :
    report? r = some report ↔ r = .error report := by
  cases r <;> simp [report?]

/-- A table with a short row, in a text with three kinds of line ends, in front of a comment. -/
def shortRow : List Char :=
  ("Feature: a\r\n  Scenario: b\n    Given c\r\n      | x | y |\r\n      | z |\r\n" ++
    "  # end\r").toList

theorem parse_tells_place_short_row : ∃ f l expected got,
    FeatureParser.parse ⟨{}, ofReader readStandard⟩ shortRow "rows.feature" =
      .error (.grammar f) ∧ f.TellsPlace shortRow l expected got := by
  have hRejected : readStandard .english (terminated shortRow) =
      .error "Error at 7:1, expected: <engine>" := report?_eq_some_iff.mp (by decide +kernel)
  exact parse_tells_place readStandard {} shortRow "rows.feature" (by decide +kernel) hRejected
    (.inr (by decide +kernel))

end Scenarist
