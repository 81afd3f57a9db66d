import Mathlib.Data.List.Chain
import Scenarist.Document.OfTree
import Scenarist.Run.Preparation

/-!
# Labels that keep the type of a step

A document keeps no types of steps but labels of their keywords, and a run gives every step a keyword
from the labels.  Both go over a block with a state of their own: the document remembers the type of
the step before, the run the last primary keyword.  A label may say conjunction of a keyword that is
none, but it does so only where the two states agree.

* `keywordType_cases`: a label says the type of the step, or says conjunction and the type is that of
  the step before.
* `Agree.resolve`: what one step preserves.
* `keywords_of_labels`: what a block preserves.
* `withKeywords_labels`: every step runs under the keyword of its own type.
-/

namespace Scenarist

/-- The primary keyword of a type of steps. -/
def Gherkin.StepType.keyword : Gherkin.StepType → StepKeyword
  | .given => .given
  | .when_ => .when_
  | .then_ => .then_

/-- The word and the type of a step, as a block sees them. -/
def Gherkin.Step.entry (n : Gherkin.Step) : String × Gherkin.StepType :=
  (String.ofList (Text.trim n.keyword.toList), n.type)

/-- The words that continue the step before them in every language. -/
def continuingWords : List String := ["*", "And", "But"]

/-- A continuing word has the type of the entry before it; in front of the first entry stands a
`given`. -/
def Continues (entries : List (String × Gherkin.StepType)) : Prop :=
  (("", .given) :: entries).IsChain fun before entry =>
    entry.1 ∈ continuingWords → entry.2 = before.2

namespace StepBlock

/-- The labels of the entries of a block, each chosen behind those before it. -/
def labels (b : StepBlock) : List (String × Gherkin.StepType) → List KeywordType
  | [] => []
  | (word, type) :: rest =>
    (b.keywordType word type).1 :: (b.keywordType word type).2.labels rest

/-- The type of the last step; `given` at the start of a block. -/
def lastType (b : StepBlock) : Gherkin.StepType := b.previous.getD .given

/-! ### One step -/

variable {b : StepBlock} {word : String} {type : Gherkin.StepType}

/-- **A label says the type of the step, or it says conjunction** of a word that continues or of a
step with the type of the step before; the type is remembered. -/
theorem keywordType_cases (b : StepBlock) (word : String) (type : Gherkin.StepType) :
    ∃ b', b'.previous = some type ∧
      (b.keywordType word type = (primary type, b') ∨
        b.keywordType word type = (.conjunction, b') ∧
          (word ∈ continuingWords ∨ b.previous = some type)) := by
  unfold keywordType
  dsimp only
  split
  · exact ⟨_, rfl, .inr ⟨rfl, .inl (by decide)⟩⟩
  · exact ⟨_, rfl, .inr ⟨rfl, .inl (by decide)⟩⟩
  · exact ⟨_, rfl, .inr ⟨rfl, .inl (by decide)⟩⟩
  · exact ⟨_, rfl, .inl rfl⟩
  · exact ⟨_, rfl, .inl rfl⟩
  · exact ⟨_, rfl, .inl rfl⟩
  · -- A word of another language is called a conjunction only where it repeats the type.
    split
    · next hRepeats =>
      rw [Bool.and_eq_true, beq_iff_eq] at hRepeats
      exact ⟨_, rfl, .inr ⟨rfl, .inr hRepeats.1⟩⟩
    · exact ⟨_, rfl, .inl rfl⟩

/-- The keyword that a conjunction would take is that of the type of the last step. -/
def Agree (b : StepBlock) (previous : Option StepKeyword) : Prop :=
  previous.getD .given = b.lastType.keyword

/-- **A step runs under the keyword of its type, and the states agree behind it.** -/
theorem Agree.resolve {previous : Option StepKeyword} (hAgree : Agree b previous)
    (hContinues : word ∈ continuingWords → type = b.lastType) {s : Step}
    (hLabel : s.keywordType = (b.keywordType word type).1) :
    (s.writtenKeyword.resolve previous).1 = type.keyword ∧
      Agree (b.keywordType word type).2 (s.writtenKeyword.resolve previous).2 ∧
      (b.keywordType word type).2.lastType = type := by
  obtain ⟨b', hPrevious, hLabelled⟩ := b.keywordType_cases word type
  have hLast : b'.lastType = type := by rw [lastType, hPrevious, Option.getD_some]
  rcases hLabelled with hPrimary | ⟨hConjunction, hWhy⟩
  · have hResolve : s.writtenKeyword.resolve previous = (type.keyword, some type.keyword) := by
      rw [Step.writtenKeyword, hLabel, hPrimary]
      cases type <;> rfl
    rw [hPrimary, hResolve, Agree, hLast]
    exact ⟨rfl, rfl, rfl⟩
  · have hType : type = b.lastType := by
      rcases hWhy with hWord | hSame
      · exact hContinues hWord
      · rw [lastType, hSame, Option.getD_some]
    have hResolve : s.writtenKeyword.resolve previous = (previous.getD .given, previous) := by
      rw [Step.writtenKeyword, hLabel, hConjunction]
      rfl
    have hKeyword : previous.getD .given = type.keyword := by rw [hType]; exact hAgree
    rw [hConjunction, hResolve, Agree, hLast, hKeyword]
    exact ⟨rfl, rfl, rfl⟩

/-! ### A block -/

/-- Steps that have the labels of entries run under the keywords of their types, from any two states
that agree. -/
theorem keywords_of_labels {before : String × Gherkin.StepType}
    {entries : List (String × Gherkin.StepType)}
    (hContinues : (before :: entries).IsChain fun before entry =>
      entry.1 ∈ continuingWords → entry.2 = before.2)
    (hLast : b.lastType = before.2) {previous : Option StepKeyword} (hAgree : Agree b previous)
    {steps : List Step} (hLabels : steps.map Step.keywordType = b.labels entries) :
    (withKeywords previous steps).map (·.2) = entries.map (·.2.keyword) := by
  induction entries generalizing before b previous steps with
  | nil =>
    rw [List.map_eq_nil_iff.mp hLabels]
    rfl
  | cons entry entries ih =>
    obtain ⟨word, type⟩ := entry
    obtain ⟨s, rest, rfl, hLabel, hRest⟩ := List.map_eq_cons_iff.mp hLabels
    obtain ⟨hHead, hTail⟩ := List.isChain_cons_cons.mp hContinues
    obtain ⟨hKeyword, hAgree, hLast⟩ := hAgree.resolve (hLast ▸ hHead) hLabel
    rw [withKeywords, List.map_cons, List.map_cons, hKeyword, ih hTail hLast hAgree hRest]

/-- The steps that a document is given have the labels of their block. -/
theorem labels_steps (s : Sheet) (nodes : List Gherkin.Step) (n : Nat) :
    ((s.steps b nodes).run n).1.map Step.keywordType = b.labels (nodes.map Gherkin.Step.entry) := by
  induction nodes generalizing b n with
  | nil => rfl
  | cons g nodes ih =>
    rw [Sheet.steps, List.map_cons, Gherkin.Step.entry, labels]
    generalize String.ofList (Text.trim g.keyword.toList) = word
    generalize b.keywordType word g.type = labelled
    obtain ⟨label, b'⟩ := labelled
    exact congrArg (label :: ·) (ih (s.step g word label n).2)

end StepBlock

/-- **Every step runs under the keyword of its own type**, whichever of the keywords of a block are
labelled conjunctions: for all steps with the labels of a block, and so for those that a document is
given. -/
theorem withKeywords_labels {entries : List (String × Gherkin.StepType)} (h : Continues entries) :
    (∀ steps : List Step, steps.map Step.keywordType = StepBlock.start.labels entries →
      (withKeywords none steps).map (·.2) = entries.map (·.2.keyword)) ∧
    ∀ (s : Sheet) (nodes : List Gherkin.Step) (n : Nat), nodes.map Gherkin.Step.entry = entries →
      (withKeywords none ((s.steps .start nodes).run n).1).map (·.2) =
        nodes.map (·.type.keyword) := by
  have hAgree : StepBlock.start.Agree none := rfl
  have hLabelled : ∀ steps : List Step,
      steps.map Step.keywordType = StepBlock.start.labels entries →
        (withKeywords none steps).map (·.2) = entries.map (·.2.keyword) :=
    fun _ hLabels => StepBlock.keywords_of_labels h rfl hAgree hLabels
  refine ⟨hLabelled, ?_⟩
  rintro s nodes n rfl
  rw [hLabelled _ (StepBlock.labels_steps s nodes n), List.map_map]
  rfl

/-- A block in Portuguese.  Its third word is another word for the first one. -/
def portuguese : List (String × Gherkin.StepType) :=
  [("Dado", .given), ("E", .given), ("Dada", .given), ("Quando", .when_), ("*", .when_),
    ("Dado", .given), ("Mas", .given)]

/-- Steps with the labels of the block. -/
def portugueseSteps : List Step :=
  [.context, .conjunction, .conjunction, .action, .conjunction, .context, .conjunction].map
    fun label => ⟨"", ⟨1, 1⟩, "", label, "", none, none⟩

theorem withKeywords_labels_portuguese :
    Continues portuguese ∧
      portugueseSteps.map Step.keywordType = StepBlock.start.labels portuguese ∧
      (withKeywords none portugueseSteps).map (·.2) =
        [.given, .given, .given, .when_, .when_, .given, .given] := by
  have hContinues : Continues portuguese := by unfold Continues; decide
  have hLabels : portugueseSteps.map Step.keywordType = StepBlock.start.labels portuguese := by
    decide +kernel
  exact ⟨hContinues, hLabels, (withKeywords_labels hContinues).1 portugueseSteps hLabels⟩

end Scenarist
