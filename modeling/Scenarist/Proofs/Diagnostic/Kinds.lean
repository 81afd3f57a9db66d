import Scenarist.Proofs.Diagnostic.Places
import Scenarist.Proofs.Number.Decimal
import Scenarist.Proofs.Text.Marker

/-!
# Kinds of structural reports

The kind of error is read off a message in which the text of a line stands between quotes.

* `inOrder_cons_iff`: texts stand in a text one after another.
* `gets_iff`: what the message of a report gets.
* `kindIn_or_eq_iff`: when another property of words changes the kind.
* `classify_violation`: the kind of a report.
* `kind_eq_kindOfBeginning_iff`: when the beginning of the line decides, for every text and every
  grammar.
-/

namespace Scenarist

namespace Diagnostic

open Text

variable {p s u v : List Char} {ps : List (List Char)}

/-! ### Texts one after another -/

theorem exists_of_after? {rest : List Char} (h : after? p s = some rest) :
    ∃ u, s = u ++ p ++ rest := by
  induction s with
  | nil =>
    rw [after?] at h
    split at h
    · next hEmpty =>
      obtain rfl := Option.some.inj h
      exact ⟨[], by rw [List.isEmpty_iff.mp hEmpty]; rfl⟩
    · cases h
  | cons c s ih =>
    rw [after?] at h
    split at h
    · next hBegins =>
      obtain rfl := Option.some.inj h
      exact ⟨[], (List.prefix_iff_eq_append.mp (List.isPrefixOf_iff_prefix.mp hBegins)).symm⟩
    · obtain ⟨u, rfl⟩ := ih h
      exact ⟨c :: u, rfl⟩

/-- Where a text stands, the first place is found, and what follows there ends in what follows
here. -/
theorem after?_append (p u v : List Char) :
    ∃ rest, after? p (u ++ p ++ v) = some rest ∧ v <:+ rest := by
  induction u with
  | nil =>
    cases p with
    | nil => cases v with
      | nil => exact ⟨[], rfl, List.suffix_refl _⟩
      | cons c v => exact ⟨c :: v, rfl, List.suffix_refl _⟩
    | cons d p =>
      refine ⟨v, ?_, List.suffix_refl _⟩
      rw [List.nil_append, List.cons_append, after?, if_pos, ← List.cons_append, List.drop_left]
      exact List.isPrefixOf_iff_prefix.mpr (List.prefix_append _ _)
  | cons c u ih =>
    rw [List.cons_append, List.cons_append, after?]
    split
    · next hBegins =>
      obtain ⟨rest, hRest⟩ := List.isPrefixOf_iff_prefix.mp hBegins
      refine ⟨rest, by rw [← hRest, List.drop_left], ?_⟩
      have hWhole : v <:+ p ++ rest := ⟨c :: (u ++ p), hRest.symm⟩
      refine List.suffix_of_suffix_length_le hWhole (List.suffix_append p rest) ?_
      have hLength := congrArg List.length hRest
      simp only [List.length_append, List.length_cons] at hLength
      omega
    · exact ih

theorem inOrder_of_suffix (h : inOrder ps v = true) (hSuffix : v <:+ s) : inOrder ps s = true := by
  induction ps generalizing v s with
  | nil => rfl
  | cons p ps ih =>
    rw [inOrder] at h
    split at h
    · next rest hAfter =>
      obtain ⟨u, rfl⟩ := exists_of_after? hAfter
      obtain ⟨a, rfl⟩ := hSuffix
      obtain ⟨rest', hFound, hBehind⟩ := after?_append p (a ++ u) rest
      rw [inOrder, ← List.append_assoc, ← List.append_assoc, hFound]
      exact ih h hBehind
    · cases h

/-- **Texts stand in a text one after another when the first stands somewhere with the others behind
it.** -/
theorem inOrder_cons_iff :
    inOrder (p :: ps) s = true ↔ ∃ u v, s = u ++ p ++ v ∧ inOrder ps v = true := by
  constructor
  · intro h
    rw [inOrder] at h
    split at h
    · next rest hAfter =>
      obtain ⟨u, hSplit⟩ := exists_of_after? hAfter
      exact ⟨u, rest, hSplit, h⟩
    · cases h
  · rintro ⟨u, v, rfl, h⟩
    obtain ⟨rest, hFound, hBehind⟩ := after?_append p u v
    rw [inOrder, hFound]
    exact inOrder_of_suffix h hBehind

/-! ### What a message gets -/

/-- What stands in front of a text that was got. -/
def gotMark : List Char := "got '".toList

/-- A word stands in a text behind a mark that looks like the mark of what was got. -/
def Imitates (t : List Char) (w : String) : Prop := gotMark ++ w.toList <:+: t

instance (t : List Char) : DecidablePred (Imitates t) := fun _ =>
  inferInstanceAs (Decidable (_ <:+: _))

variable {a b t : List Char} {w : String}

/-- A word that ends in no quote does not reach the quote behind a text. -/
theorem infix_of_infix_quote {x : List Char} (hx : x ≠ []) (hQuote : '\'' ∉ x)
    (h : gotMark ++ x <:+: t ++ ['\'']) : gotMark ++ x <:+: t := by
  rcases List.infix_concat_iff.mp h with hEnd | hInside
  · obtain ⟨y, c, rfl⟩ : ∃ y c, x = y ++ [c] :=
      ⟨_, _, (List.dropLast_concat_getLast hx).symm⟩
    obtain ⟨u, hu⟩ := hEnd
    rw [← List.append_assoc, ← List.append_assoc] at hu
    have hLast := (List.append_inj' hu rfl).2
    rw [List.cons.inj hLast |>.1] at hQuote
    exact absurd (List.mem_append_right y List.mem_cons_self) hQuote
  · exact hInside

theorem prefix_of_prefix_quote {x : List Char} (hQuote : '\'' ∉ x) (h : x <+: t ++ ['\'']) :
    x <+: t := by
  rcases List.prefix_concat_iff.mp h with rfl | h
  · exact absurd (List.mem_append_right t List.mem_cons_self) hQuote
  · exact h

/-- **The message of a report gets a word when the text that it got begins with the word or imitates
a message that gets it.** -/
theorem gets_iff (ha : '\'' ∉ a) (hb : '\'' ∉ b) (hw : '\'' ∉ w.toList) :
    gets w (a ++ "expected:".toList ++ (b ++ gotMark ++ (t ++ ['\'']))) = true ↔
      w.toList <+: t ∨ Imitates t w := by
  have hMark : ("got '" ++ w).toList = gotMark ++ w.toList := String.toList_append
  have hEnd : ∀ y : List Char, inOrder [['\'']] (y ++ ['\'']) = true := fun y =>
    inOrder_cons_iff.mpr ⟨y, [], by rw [List.append_nil], rfl⟩
  rw [gets, hMark]
  constructor
  · intro h
    obtain ⟨u₁, v₁, hFirst, h⟩ := inOrder_cons_iff.mp h
    obtain ⟨u₂, v₂, rfl, -⟩ := inOrder_cons_iff.mp h
    have hInfix : "got ".toList ++ '\'' :: w.toList <:+:
        (a ++ "expected:".toList ++ (b ++ "got ".toList)) ++ '\'' :: (t ++ ['\'']) := by
      refine ⟨u₁ ++ "expected:".toList ++ u₂, v₂, ?_⟩
      rw [show gotMark = "got ".toList ++ ['\''] from rfl] at hFirst
      simp only [List.append_assoc, List.cons_append, List.nil_append] at hFirst ⊢
      exact hFirst.symm
    by_cases hEmpty : w.toList = []
    · exact .inl (hEmpty ▸ List.nil_prefix)
    have hFront : '\'' ∉ a ++ "expected:".toList ++ (b ++ "got ".toList) := by
      simp only [List.mem_append, not_or]
      exact ⟨⟨ha, by decide⟩, hb, by decide⟩
    -- The mark is the only one in front of the text, so the word stands at it or in the text.
    rcases (append_cons_infix_iff (by decide) hFront).mp hInfix with ⟨-, hBegins⟩ | hInside
    · exact .inl (prefix_of_prefix_quote hw hBegins)
    · exact .inr (infix_of_infix_quote hEmpty hw hInside)
  · rintro (⟨y, rfl⟩ | ⟨x, y, rfl⟩)
    · refine inOrder_cons_iff.mpr ⟨a, _, rfl, inOrder_cons_iff.mpr ⟨b, y ++ ['\''], ?_, hEnd y⟩⟩
      simp only [List.append_assoc]
    · refine inOrder_cons_iff.mpr ⟨a, _, rfl,
        inOrder_cons_iff.mpr ⟨b ++ gotMark ++ x, y ++ ['\''], ?_, hEnd y⟩⟩
      simp only [List.append_assoc]

/-! ### Kinds and beginnings -/

/-- The words that the lines of a kind begin with, in the order in which the kinds are tried. -/
def beginnings : List (List String × ParseErrorKind) := [
  (["Feature", "Given", "When", "Then", "And", "But"], .feature),
  (["Background"], .background),
  (["Scenario"], .scenario),
  (["Rule"], .rule)]

/-- The first kind in a list with a word that has a property. -/
def kindIn (P : String → Prop) [DecidablePred P] :
    List (List String × ParseErrorKind) → ParseErrorKind
  | [] => .token
  | (words, kind) :: more => if ∃ w ∈ words, P w then kind else kindIn P more

/-- The kind of error that the beginning of a line tells of. -/
def kindOfBeginning (t : List Char) : ParseErrorKind := kindIn (fun w => w.toList <+: t) beginnings

theorem kindIn_congr {P Q : String → Prop} [DecidablePred P] [DecidablePred Q]
    {kinds : List (List String × ParseErrorKind)} (h : ∀ k ∈ kinds, ∀ w ∈ k.1, P w ↔ Q w) :
    kindIn P kinds = kindIn Q kinds := by
  induction kinds with
  | nil => rfl
  | cons k kinds ih =>
    obtain ⟨hFirst, hRest⟩ := List.forall_mem_cons.mp h
    have hIff : (∃ w ∈ k.1, P w) ↔ ∃ w ∈ k.1, Q w :=
      exists_congr fun w => and_congr_right fun hw => hFirst w hw
    simp only [kindIn, hIff, ih hRest]

theorem kindIn_mem_or {P : String → Prop} [DecidablePred P]
    (kinds : List (List String × ParseErrorKind)) :
    kindIn P kinds ∈ kinds.map (·.2) ∨ kindIn P kinds = .token := by
  induction kinds with
  | nil => exact .inr rfl
  | cons k kinds ih =>
    rw [kindIn, List.map_cons]
    split
    · exact .inl List.mem_cons_self
    · exact ih.imp_left (List.mem_cons_of_mem _)

/-- Another property changes the kind exactly when a word of an earlier kind has it. -/
theorem kindIn_or_eq_iff {P Q : String → Prop} [DecidablePred P] [DecidablePred Q]
    {kinds : List (List String × ParseErrorKind)} (hNodup : (kinds.map (·.2)).Nodup)
    (hToken : .token ∉ kinds.map (·.2)) :
    kindIn (fun w => P w ∨ Q w) kinds = kindIn P kinds ↔
      ∀ k ∈ kinds.takeWhile (fun k => k.2 ≠ kindIn P kinds), ∀ w ∈ k.1, ¬ Q w := by
  induction kinds with
  | nil => exact iff_of_true rfl fun k hk => absurd hk List.not_mem_nil
  | cons k kinds ih =>
    rw [List.map_cons, List.nodup_cons] at hNodup
    rw [List.map_cons, List.mem_cons, not_or] at hToken
    rw [kindIn, kindIn]
    by_cases hP : ∃ w ∈ k.1, P w
    · have hEither : ∃ w ∈ k.1, P w ∨ Q w := hP.imp fun w h => ⟨h.1, .inl h.2⟩
      rw [if_pos hP, if_pos hEither, List.takeWhile_cons_of_neg (by simp)]
      exact iff_of_true rfl fun k hk => absurd hk List.not_mem_nil
    · have hOther : k.2 ≠ kindIn P kinds := by
        intro hEq
        rcases kindIn_mem_or (P := P) kinds with hMem | hNone
        · exact hNodup.1 (hEq ▸ hMem)
        · exact hToken.1 (hEq.trans hNone).symm
      rw [if_neg hP, List.takeWhile_cons_of_pos (by simpa using hOther), List.forall_mem_cons,
        ← ih hNodup.2 hToken.2]
      by_cases hQ : ∃ w ∈ k.1, Q w
      · have hEither : ∃ w ∈ k.1, P w ∨ Q w := hQ.imp fun w h => ⟨h.1, .inr h.2⟩
        rw [if_pos hEither]
        refine iff_of_false hOther fun h => ?_
        obtain ⟨w, hw, hHolds⟩ := hQ
        exact h.1 w hw hHolds
      · have hNeither : ¬ ∃ w ∈ k.1, P w ∨ Q w := by
          rintro ⟨w, hw, h | h⟩
          · exact hP ⟨w, hw, h⟩
          · exact hQ ⟨w, hw, h⟩
        rw [if_neg hNeither]
        exact ⟨fun h => ⟨fun w hw hHolds => hQ ⟨w, hw, hHolds⟩, h⟩, fun h => h.2⟩

/-- The kind of the earliest rule with a word that has a property, where the empty word has it. -/
theorem map_kind_find?_rules {g : String → Bool} (h : g "" = true) :
    (rules.find? fun r => r.words.any g).map Rule.kind =
      some (kindIn (fun w => g w = true) beginnings) := by
  simp only [rules, beginnings, kindIn, List.find?_cons, List.any_cons, List.any_nil,
    Bool.or_false, List.mem_cons, List.not_mem_nil, or_false, exists_eq_or_imp, exists_eq_left, h]
  -- No other kind has a rule behind the last one, so nine truth values are all that is left.
  generalize g "Feature" = feature, g "Given" = given, g "When" = when_, g "Then" = then_,
    g "And" = and_, g "But" = but, g "Background" = background, g "Scenario" = scenario,
    g "Rule" = rule
  revert feature given when_ then_ and_ but background scenario rule
  decide +kernel

/-! ### Messages of reports -/

/-- A text has neither a quote nor a line feed. -/
def Unmarked (s : List Char) : Prop := '\'' ∉ s ∧ '\n' ∉ s

instance (s : List Char) : Decidable (Unmarked s) := inferInstanceAs (Decidable (_ ∧ _))

theorem Unmarked.append (hs : Unmarked s) (hu : Unmarked u) : Unmarked (s ++ u) :=
  ⟨fun h => (List.mem_append.mp h).elim hs.1 hu.1, fun h => (List.mem_append.mp h).elim hs.2 hu.2⟩

/-- The beginning of a message. -/
def placeText (l : Location) : List Char :=
  "(".toList ++ (toString l.line).toList ++ ":".toList ++ (toString l.column).toList ++ "): ".toList

/-- What a message lists between its two marks. -/
def listText (expected : String) : List Char := " ".toList ++ expected.toList ++ ", ".toList

theorem message_at (l : Location) (expected got : String) :
    (EngineFailure.at_ l expected got).message.toList =
      placeText l ++ "expected:".toList ++
        (listText expected ++ gotMark ++ (got.toList ++ ['\''])) := by
  have hParts : (EngineFailure.at_ l expected got).message =
      "(" ++ toString l.line ++ ":" ++ toString l.column ++ "): expected: " ++ expected ++
        ", got '" ++ got ++ "'" := rfl
  have hExpected : "): expected: ".toList = "): ".toList ++ "expected:".toList ++ " ".toList := rfl
  have hGot : ", got '".toList = ", ".toList ++ gotMark := rfl
  have hEnd : "'".toList = ['\''] := rfl
  simp only [hParts, String.toList_append, placeText, listText, hExpected, hGot, hEnd,
    List.append_assoc]

theorem unmarked_digits (n : Nat) : Unmarked (toString n).toList := by
  have hDigit : ∀ c ∈ (toString n).toList, Number.isAsciiDigit c = true := fun c hc =>
    Number.isAsciiDigit_of_mem_toDigits (Nat.toList_repr ▸ hc)
  exact ⟨fun h => absurd (hDigit _ h) (by decide), fun h => absurd (hDigit _ h) (by decide)⟩

theorem unmarked_placeText (l : Location) : Unmarked (placeText l) :=
  ((((Unmarked.append (by decide) (unmarked_digits l.line)).append (by decide)).append
    (unmarked_digits l.column)).append (by decide))

theorem unmarked_listText (classes : List Structure.TokenClass) :
    Unmarked (listText (", ".intercalate (classes.map Structure.TokenClass.label))) := by
  have hLabels : Unmarked (", ".intercalate (classes.map Structure.TokenClass.label)).toList := by
    induction classes with
    | nil => decide
    | cons k classes ih =>
      have hLabel : Unmarked k.label.toList := by cases k <;> decide
      cases classes with
      | nil => exact hLabel
      | cons k' classes =>
        rw [List.map_cons, List.map_cons, String.intercalate_cons_cons, String.toList_append,
          String.toList_append]
        exact (hLabel.append (by decide)).append ih
  exact (Unmarked.append (by decide) hLabels).append (by decide)

theorem lines_of_notMem {s : List Char} (hNonempty : s ≠ []) (h : '\n' ∉ s) :
    Text.lines s = [s] := by
  rw [Text.lines, pieces_of_notMem h]
  cases s with
  | nil => exact absurd rfl hNonempty
  | cons c s => rfl

/-- **The kind of a report is the first one with a word that its text begins with or imitates.** -/
theorem classify_violation {v : Structure.Violation} (h : '\n' ∉ v.got.toList) :
    (classify v.failure.message).1 =
      kindIn (fun w => w.toList <+: v.got.toList ∨ Imitates v.got.toList w) beginnings := by
  have hMessage : v.failure.message.toList = _ := message_at v.location _ v.got
  have hPlace := unmarked_placeText v.location
  have hList := unmarked_listText v.expected
  have hGets : ∀ w : String, '\'' ∉ w.toList →
      (gets w v.failure.message.toList = true ↔
        w.toList <+: v.got.toList ∨ Imitates v.got.toList w) := by
    intro w hw
    rw [hMessage]
    exact gets_iff hPlace.1 hList.1 hw
  have hLines : Text.lines v.failure.message.toList = [v.failure.message.toList] := by
    refine lines_of_notMem ?_ ?_
    · rw [hMessage]
      exact List.append_ne_nil_of_right_ne_nil _ (List.append_ne_nil_of_right_ne_nil _
        (List.append_ne_nil_of_right_ne_nil _ (List.cons_ne_nil _ _)))
    · rw [hMessage]
      simp only [List.mem_append, not_or]
      exact ⟨⟨hPlace.2, by decide⟩, ⟨hList.2, by decide⟩, h, by decide⟩
  have hRule : (ruleFor? v.failure.message.toList).map Rule.kind = _ :=
    map_kind_find?_rules ((hGets "" List.not_mem_nil).mpr (.inl List.nil_prefix))
  obtain ⟨r, hFound, hKind⟩ := Option.map_eq_some_iff.mp hRule
  rw [classify, hLines, List.findSome?_cons, hFound]
  dsimp only
  rw [hKind]
  have hWords : ∀ k ∈ beginnings, ∀ w ∈ k.1, '\'' ∉ w.toList := by decide
  exact kindIn_congr fun k hk w hw => hGets w (hWords k hk w hw)

end Diagnostic

/-! ### Parsing -/

open Text Diagnostic GrammarEngine

theorem notMem_lineAt {source : List Char} {n : Nat} : '\n' ∉ (scan source).lineAt n := by
  cases n with
  | zero => exact List.not_mem_nil
  | succ n =>
    show '\n' ∉ ((Source.linesOf (terminated source))[n]?).getD []
    cases hLine : (Source.linesOf (terminated source))[n]? with
    | none => exact List.not_mem_nil
    | some l => exact notMem_of_mem_linesOf (List.mem_of_getElem? hLine)

/-- The text of a line without the blanks around it. -/
def textAt (source : List Char) (n : Nat) : List Char := trim ((scan source).lineAt n)

/-- **The kind of error for a line that breaks the order of blocks.**  It is the first kind with a
word that the line begins with or that stands in the line behind something like the mark of what was
got; so it is the kind that the beginning of the line tells of unless a word of an earlier kind
stands so. -/
theorem kind_eq_kindOfBeginning_iff (read : FeatureReader) (config : ParserConfig)
    (source : List Char) (filename : String) {report : String} {v : Structure.Violation}
    (hEnglish : languageOf (scan source) config.language = "en")
    (hReport : Structure.firstViolation (scan source) = some v)
    (hRejected : read .english (terminated source) = .error report) :
    ∃ f, FeatureParser.parse ⟨config, ofReader read⟩ source filename = .error (.grammar f) ∧
      f.kind = kindIn (fun w => w.toList <+: textAt source v.location.line ∨
        Imitates (textAt source v.location.line) w) beginnings ∧
      (f.kind = kindOfBeginning (textAt source v.location.line) ↔
        ∀ k ∈ beginnings.takeWhile
            (fun k => k.2 ≠ kindOfBeginning (textAt source v.location.line)),
          ∀ w ∈ k.1, ¬ Imitates (textAt source v.location.line) w) := by
  have hDialect : Dialect.ofName? (languageOf (scan source) config.language) = some .english := by
    rw [hEnglish]
    decide
  have hGot : v.got = String.ofList (textAt source v.location.line) :=
    Structure.got_of_firstViolation hReport
  have hClean : '\n' ∉ v.got.toList := by
    rw [hGot, String.toList_ofList]
    exact fun h => notMem_lineAt ((trim_sublist _).subset h)
  have hFailure : locateFailure (scan source) (languageOf (scan source) config.language) report =
      v.failure := by
    rw [locateFailure, violation?, if_pos hEnglish, hReport]
  have hParse := parse_of_rejected hDialect hRejected filename
  rw [hFailure] at hParse
  have hKind := (FeatureParser.kind_faultOf source filename v.failure).trans
    (classify_violation hClean)
  rw [hGot, String.toList_ofList] at hKind
  refine ⟨_, hParse, hKind, ?_⟩
  rw [hKind]
  exact kindIn_or_eq_iff (by decide) (by decide)

/-- A scenario in front of the feature, with a name that imitates a message about a rule. -/
def scenarioNamedAfterRule : List Char := "Scenario: got 'Rule x'\nFeature: a\n".toList

theorem kind_of_scenario_named_after_rule : ∃ f,
    FeatureParser.parse ⟨{}, ofReader readStandard⟩ scenarioNamedAfterRule "early.feature" =
      .error (.grammar f) ∧ f.kind = .scenario := by
  have hReport : Structure.firstViolation (scan scenarioNamedAfterRule) =
      some ⟨⟨1, 1⟩, .scenario, Structure.Walker.start.expected, "Scenario: got 'Rule x'"⟩ := by
    decide +kernel
  have hRejected : readStandard .english (terminated scenarioNamedAfterRule) =
      .error "Error at 1:14, expected: <engine>" := report?_eq_some_iff.mp (by decide +kernel)
  obtain ⟨f, hParse, -, hKind⟩ := kind_eq_kindOfBeginning_iff readStandard {} scenarioNamedAfterRule
    "early.feature" (by decide +kernel) hReport hRejected
  exact ⟨f, hParse, (hKind.mpr (by decide +kernel)).trans (by decide +kernel)⟩

/-- The fault of a text that is rejected. -/
def rejection? (r : Except ParseFault Document) : Option GrammarFault :=
  match r with
  | .error (.grammar f) => some f
  | _ => none

theorem rejection?_eq_some_iff {r : Except ParseFault Document} {f : GrammarFault} :
    rejection? r = some f ↔ r = .error (.grammar f) := by
  unfold rejection?
  split <;> simp_all

/-- A second background with a name that imitates a message about a feature. -/
def backgroundNamedAfterFeature : List Char :=
  "Feature: Shop\n  Background:\n    Given a\n  Background: got 'Feature'\n".toList

/-- **The beginning of the line does not decide the kind of every error**: a line that begins with
`Background` is taken for a second feature when its name imitates a message about one. -/
theorem background_taken_for_feature :
    ¬ ∀ (config : ParserConfig) (source : List Char) (filename : String)
      (v : Structure.Violation) (f : GrammarFault),
      languageOf (scan source) config.language = "en" →
      Structure.firstViolation (scan source) = some v →
      FeatureParser.parse ⟨config, standard⟩ source filename = .error (.grammar f) →
      f.kind = kindOfBeginning (textAt source v.location.line) := by
  intro hAll
  have hReport : (Structure.firstViolation (scan backgroundNamedAfterFeature)).map
      (·.location.line) = some 4 := by
    decide +kernel
  have hRejected : (rejection? (FeatureParser.parse ⟨{}, standard⟩ backgroundNamedAfterFeature
      "shop.feature")).map (·.kind) = some .feature := by
    decide +kernel
  have hBeginning : kindOfBeginning (textAt backgroundNamedAfterFeature 4) = .background := by
    decide +kernel
  obtain ⟨v, hViolation, hLine⟩ := Option.map_eq_some_iff.mp hReport
  obtain ⟨f, hFault, hKind⟩ := Option.map_eq_some_iff.mp hRejected
  have hDecided := hAll {} _ _ v f (by decide +kernel) hViolation
    (rejection?_eq_some_iff.mp hFault)
  rw [hLine, hKind, hBeginning] at hDecided
  cases hDecided

end Scenarist
