import Mathlib.Data.List.Forall2
import Mathlib.Data.List.TakeWhile
import Scenarist.Proofs.Document.Identifiers

/-!
# Documents and their feature trees

`Sheet.FeatureFrom` says that a feature of a document stands for a feature of the grammar: node for
node, one for each and nothing else, each with the place and the texts of its line.  Under a feature
and under a rule the nodes of the tree come in an order that `FeatureFrom` and `RuleFrom` leave open.

* `featureFrom`: the feature of a document stands for the tree that it is built from.
* `headerLine_mono`: nodes further down have their headers further down.
* `emits_tree`: both together, with the order of the children.
-/

namespace Scenarist

open Text

/-! ### Lines of headers -/

namespace SourceText

/-- The header of a line is the first one from there on, or the line itself when there is none. -/
theorem headerLine_cases (t : SourceText) (n : Nat) :
    (n ≤ t.headerLine n ∧ t.headerLine n ≤ t.count ∧ t.kind? (t.headerLine n) = some .other ∧
      ∀ k, n ≤ k → k < t.headerLine n → t.kind? k ≠ some .other) ∨
    (t.headerLine n = n ∧ ∀ k, n ≤ k → k ≤ t.count → t.kind? k ≠ some .other) := by
  unfold headerLine numbersFrom
  cases hFind : (List.range' n (t.count + 1 - n)).find? fun k => t.kind? k = some .other with
  | none =>
    refine .inr ⟨rfl, fun k hnk hk hKind => ?_⟩
    have hNot := List.find?_eq_none.mp hFind k (List.mem_range'_1.mpr (by omega))
    exact hNot (decide_eq_true hKind)
  | some k =>
    obtain ⟨hKind, hMem, hFirst⟩ := List.find?_range'_eq_some.mp hFind
    have hRange := List.mem_range'_1.mp hMem
    refine .inl ⟨hRange.1, by show k ≤ t.count; omega, of_decide_eq_true hKind, fun j hnj hj => ?_⟩
    have hSkipped := hFirst j hnj hj
    simpa using hSkipped

/-- Nodes further down have their headers further down. -/
theorem headerLine_mono (t : SourceText) {n m : Nat} (h : n ≤ m) :
    t.headerLine n ≤ t.headerLine m := by
  by_contra hBack
  rcases t.headerLine_cases n with ⟨hn, hnCount, hnKind, hnFirst⟩ | ⟨hn, hnNone⟩ <;>
    rcases t.headerLine_cases m with ⟨hm, hmCount, hmKind, hmFirst⟩ | ⟨hm, hmNone⟩
  · exact hnFirst _ (by omega) (by omega) hmKind
  · exact hmNone _ (by omega) (by omega) hnKind
  · exact hnNone _ (by omega) (by omega) hmKind
  · omega

end SourceText

/-! ### Nodes that stand for nodes -/

namespace Sheet

variable (s : Sheet)

/-- A header stands for a node found in a line. -/
structure HeaderFrom (line : Nat) (location : Location) (keyword name description : String) :
    Prop where
  location : location = s.text.startOf (s.text.headerLine line)
  title : (keyword, name) = s.text.header (s.text.headerLine line)
  description : description = s.text.description s.structural (s.text.headerLine line)

/-- The name of a tag with its sign. -/
def signed (name : String) : String := if "@".isPrefixOf name then name else "@" ++ name

/-- A tag stands for a name, which may have been written with its sign. -/
def TagFrom (name : String) (d : Tag) : Prop := signed name = d.name

/-- A row stands for an entry of a table with its index. Its values are those written in its line,
unless there is no such line or nothing is written in it. -/
structure RowFrom (lines : List Nat) (fallback : Location) (n : List String × Nat) (d : Row) :
    Prop where
  location : d.location = (lines[n.2]?.map s.text.startOf).getD fallback
  values : d.values = match (lines[n.2]?.map s.text.cells).getD [] with
    | [] => n.1
    | written => written.map (·.2)

structure StepFrom (n : Gherkin.Step) (d : Step) : Prop where
  location : d.location = s.text.startOf n.line
  keyword : d.keyword = String.ofList (trim n.keyword.toList)
  text : d.text = String.ofList (trimEnd n.value.toList)
  docString : d.docString = n.docString.map (s.docString n.line)
  table : d.dataTable.isSome = n.table.isSome
  rows : List.Forall₂ (s.RowFrom (s.text.rowsAfter n.line) ⟨n.line + 1, 1⟩)
    (n.table.getD []).zipIdx d.rows

structure BackgroundFrom (n : Gherkin.Background) (d : Background) : Prop where
  header : s.HeaderFrom n.line d.location d.keyword d.name d.description
  steps : List.Forall₂ s.StepFrom n.steps d.steps

structure ExamplesFrom (n : Gherkin.Examples) (d : ExamplesTable) : Prop where
  header : s.HeaderFrom n.line d.location d.keyword (d.name.getD "") d.description
  rows : List.Forall₂ (s.RowFrom (s.exampleLines d.location.line) ⟨d.location.line + 1, 1⟩)
    (n.table.getD []).zipIdx d.rows
  tags : List.Forall₂ TagFrom n.tags d.tags

structure ScenarioFrom (n : Gherkin.Scenario) (d : Scenario) : Prop where
  header : s.HeaderFrom n.line d.location d.keyword d.name d.description
  steps : List.Forall₂ s.StepFrom n.steps d.steps
  examples : List.Forall₂ s.ExamplesFrom n.examples d.examples
  tags : List.Forall₂ TagFrom n.tags d.tags

inductive RuleNodeFrom : Gherkin.Background ⊕ Gherkin.Scenario → RuleChild → Prop
  | background {n : Gherkin.Background} {d : Background} (h : s.BackgroundFrom n d) :
    RuleNodeFrom (.inl n) (.background d)
  | scenario {n : Gherkin.Scenario} {d : Scenario} (h : s.ScenarioFrom n d) :
    RuleNodeFrom (.inr n) (.scenario d)

structure RuleFrom (n : Gherkin.Rule) (d : Rule) : Prop where
  header : s.HeaderFrom n.line d.location d.keyword d.name d.description
  tags : List.Forall₂ TagFrom n.tags d.tags
  children : ∃ nodes : List (Gherkin.Background ⊕ Gherkin.Scenario),
    nodes.Perm (n.background.toList.map .inl ++ n.scenarios.map .inr) ∧
      List.Forall₂ s.RuleNodeFrom nodes d.children

inductive NodeFrom : Node → FeatureChild → Prop
  | background {n : Gherkin.Background} {d : Background} (h : s.BackgroundFrom n d) :
    NodeFrom (.background n) (.background d)
  | scenario {n : Gherkin.Scenario} {d : Scenario} (h : s.ScenarioFrom n d) :
    NodeFrom (.scenario n) (.scenario d)
  | rule {n : Gherkin.Rule} {d : Rule} (h : s.RuleFrom n d) : NodeFrom (.rule n) (.rule d)

structure FeatureFrom (n : Gherkin.Feature) (d : Feature) : Prop where
  header : s.HeaderFrom n.line d.location d.keyword d.name d.description
  tags : List.Forall₂ TagFrom n.tags d.tags
  children : ∃ nodes : List Node,
    nodes.Perm (n.background.toList.map .background ++ n.scenarios.map .scenario ++
      n.rules.map .rule) ∧ List.Forall₂ s.NodeFrom nodes d.children

/-! ### What is built -/

/-- What is built one after another stands for what it is built from. -/
theorem forall₂_mapM {α β : Type} {f : α → IdSupply β} {R : α → β → Prop}
    (h : ∀ a k, R a ((f a).run k).1) (l : List α) (k : Nat) :
    List.Forall₂ R l ((l.mapM f).run k).1 := by
  induction l generalizing k with
  | nil => exact .nil
  | cons a l ih =>
    rw [List.mapM_cons]
    exact .cons (h a k) (ih ((f a).run k).2)

theorem exists_of_mem_mapM {α β : Type} {f : α → IdSupply β} {l : List α} {k : Nat} {b : β}
    (h : b ∈ ((l.mapM f).run k).1) : ∃ a ∈ l, ∃ j, b = ((f a).run j).1 := by
  induction l generalizing k with
  | nil => exact absurd h List.not_mem_nil
  | cons a l ih =>
    rw [List.mapM_cons] at h
    rcases List.mem_cons.mp h with rfl | h
    · exact ⟨a, List.mem_cons_self, k, rfl⟩
    · obtain ⟨a', ha', hb⟩ := ih h
      exact ⟨a', List.mem_cons_of_mem a ha', hb⟩

theorem headerFrom (line : Nat) :
    s.HeaderFrom line (s.text.startOf (s.header line).1) (s.header line).2.1 (s.header line).2.2.1
      (s.header line).2.2.2 := ⟨rfl, rfl, rfl⟩

theorem rowFrom (lines : List Nat) (fallback : Location) (n : List String × Nat) (k : Nat) :
    s.RowFrom lines fallback n ((s.row lines[n.2]? fallback n.1).run k).1 where
  location := rfl
  values := by
    show List.map _ (List.map _ (if ((lines[n.2]?.map s.text.cells).getD []).isEmpty then _
      else (lines[n.2]?.map s.text.cells).getD [])) = _
    rw [List.map_map]
    cases (lines[n.2]?.map s.text.cells).getD [] with
    | nil => simp [Function.comp_def]
    | cons c cs => rfl

theorem rowsFrom (lines : List Nat) (fallback : Location) (table : List (List String)) (k : Nat) :
    List.Forall₂ (s.RowFrom lines fallback) table.zipIdx ((s.rows lines fallback table).run k).1 :=
  forall₂_mapM (fun n k => s.rowFrom lines fallback n k) _ k

theorem length_tagPlaces (fallback : Location) (found : List (Location × String))
    (names : List String) : (tagPlaces fallback found names).length = names.length := by
  induction names generalizing found with
  | nil => rfl
  | cons name names ih =>
    rw [tagPlaces]
    split <;> rw [List.length_cons, ih, List.length_cons]

theorem tagsFrom (n : Nat) (names : List String) (k : Nat) :
    List.Forall₂ TagFrom names ((s.tags n names).run k).1 := by
  have hZip : List.Forall₂ (fun (p : Location × String) (d : Tag) => p.2 = d.name)
      ((tagPlaces ⟨max (n - 1) 1, 1⟩ (s.text.tagsBefore n) (names.map signed)).zip
        (names.map signed)) ((s.tags n names).run k).1 := by
    refine forall₂_mapM ?_ _ k
    rintro ⟨location, name⟩ k
    rfl
  have hAll : (names.map signed).length ≤
      (tagPlaces ⟨max (n - 1) 1, 1⟩ (s.text.tagsBefore n) (names.map signed)).length := by
    rw [length_tagPlaces]
  have hNames := (List.forall₂_map_left_iff (R := fun name d => name = Tag.name d)).mpr hZip
  rw [List.map_snd_zip hAll] at hNames
  exact (List.forall₂_map_left_iff (R := fun name d => name = Tag.name d)).mp hNames

theorem stepFrom (n : Gherkin.Step) (keyword : KeywordType) (k : Nat) :
    s.StepFrom n ((s.step n (String.ofList (trim n.keyword.toList)) keyword).run k).1 where
  location := rfl
  keyword := rfl
  text := rfl
  docString := rfl
  table := by
    show (((n.table.mapM (s.dataTable n.line)).run k).1).isSome = n.table.isSome
    cases n.table <;> rfl
  rows := by
    show List.Forall₂ _ _ (((((n.table.mapM (s.dataTable n.line)).run k).1).map (·.rows)).getD [])
    cases n.table with
    | none => exact .nil
    | some table => exact s.rowsFrom _ _ table k

theorem stepsFrom (b : StepBlock) (ns : List Gherkin.Step) (k : Nat) :
    List.Forall₂ s.StepFrom ns ((s.steps b ns).run k).1 := by
  induction ns generalizing b k with
  | nil => exact .nil
  | cons n ns ih =>
    rw [steps]
    generalize b.keywordType _ n.type = typed
    obtain ⟨type, b'⟩ := typed
    exact .cons (s.stepFrom n type k) (ih b' _)

theorem backgroundFrom (n : Gherkin.Background) (k : Nat) :
    s.BackgroundFrom n ((s.background n).run k).1 :=
  ⟨s.headerFrom n.line, s.stepsFrom _ _ _⟩

theorem examplesFrom (n : Gherkin.Examples) (k : Nat) :
    s.ExamplesFrom n ((s.examples n).run k).1 where
  header := by
    have hHeader := s.headerFrom n.line
    unfold examples
    generalize s.header n.line = found at hHeader ⊢
    obtain ⟨line, keyword, name, description⟩ := found
    have hName : (if name.isEmpty then none else some name).getD "" = name := by
      split
      · next hEmpty => rw [Option.getD_none, ← String.isEmpty_iff.mp hEmpty]
      · rfl
    show s.HeaderFrom n.line (s.text.startOf line) keyword
      ((if name.isEmpty then none else some name).getD "") description
    rw [hName]
    exact hHeader
  rows := by
    have hRows := s.rowsFrom (s.exampleLines (s.header n.line).1) ⟨(s.header n.line).1 + 1, 1⟩
      (n.table.getD []) k
    rw [← toList_head?_append_tail ((s.rows _ _ _).run k).1] at hRows
    exact hRows
  tags := s.tagsFrom _ _ _

theorem scenarioFrom (n : Gherkin.Scenario) (k : Nat) :
    s.ScenarioFrom n ((s.scenario n).run k).1 :=
  ⟨s.headerFrom n.line, s.stepsFrom _ _ _, forall₂_mapM s.examplesFrom _ _, s.tagsFrom _ _ _⟩

theorem ruleNodesFrom (n : Gherkin.Rule) (k : Nat) :
    List.Forall₂ s.RuleNodeFrom (ruleNodes n) ((s.rule n).run k).1.children := by
  refine forall₂_mapM ?_ (ruleNodes n) k
  rintro (b | c) k
  · exact .background (s.backgroundFrom b k)
  · exact .scenario (s.scenarioFrom c k)

/-- The background of a rule is put among the scenarios, and nothing is lost. -/
theorem ruleNodes_perm (n : Gherkin.Rule) :
    (ruleNodes n).Perm (n.background.toList.map .inl ++ n.scenarios.map .inr) := by
  unfold ruleNodes
  cases n.background with
  | none => exact .refl _
  | some b =>
    refine List.perm_middle.trans ?_
    rw [← List.map_append, List.takeWhile_append_dropWhile]
    exact .refl _

theorem ruleFrom (n : Gherkin.Rule) (k : Nat) : s.RuleFrom n ((s.rule n).run k).1 where
  header := s.headerFrom n.line
  tags := s.tagsFrom _ _ _
  children := ⟨ruleNodes n, ruleNodes_perm n, s.ruleNodesFrom n k⟩

theorem nodesFrom (ns : List Node) (k : Nat) :
    List.Forall₂ s.NodeFrom ns ((ns.mapM s.child).run k).1 := by
  refine forall₂_mapM ?_ ns k
  rintro (n | n | n) k
  · exact .background (s.backgroundFrom n k)
  · exact .scenario (s.scenarioFrom n k)
  · exact .rule (s.ruleFrom n k)

/-- The nodes under a feature are put in the order of their lines, and nothing is lost. -/
theorem featureNodes_perm (f : Gherkin.Feature) :
    (featureNodes f).Perm (f.background.toList.map .background ++ f.scenarios.map .scenario ++
      f.rules.map .rule) := by
  have hToList : (f.background.map Node.background).toList =
      f.background.toList.map Node.background := by
    cases f.background <;> rfl
  rw [← hToList]
  exact List.mergeSort_perm _ _

/-- **A feature of a document stands for the tree that it is built from.** -/
theorem featureFrom (language : String) (f : Gherkin.Feature) (k : Nat) :
    s.FeatureFrom f ((s.feature language f).run k).1 where
  header := s.headerFrom f.line
  tags := s.tagsFrom _ _ _
  children := ⟨featureNodes f, featureNodes_perm f, s.nodesFrom _ k⟩

/-! ### The order of children -/

variable {s}

theorem pairwise_featureNodes (f : Gherkin.Feature) :
    ((featureNodes f).map Node.line).Pairwise (· ≤ ·) := by
  rw [List.pairwise_map]
  refine (List.pairwise_mergeSort ?_ ?_ _).imp of_decide_eq_true
  · intro a b c hab hbc
    have hab := of_decide_eq_true hab
    have hbc := of_decide_eq_true hbc
    exact decide_eq_true (Nat.le_trans hab hbc)
  · intro a b
    simpa using Nat.le_total a.line b.line

/-- Behind the scenarios in front of a line there are only scenarios from that line on. -/
theorem le_of_mem_dropWhile {cs : List Gherkin.Scenario} {line : Nat}
    (hOrder : (cs.map (·.line)).Pairwise (· ≤ ·)) {c : Gherkin.Scenario}
    (hc : c ∈ cs.dropWhile fun c => decide (c.line < line)) : line ≤ c.line := by
  induction cs with
  | nil => exact absurd hc List.not_mem_nil
  | cons first cs ih =>
    rw [List.map_cons, List.pairwise_cons] at hOrder
    rw [List.dropWhile_cons] at hc
    split at hc
    · exact ih hOrder.2 hc
    · next hFirst =>
      have hReached : line ≤ first.line := by simpa using hFirst
      rcases List.mem_cons.mp hc with rfl | hc
      · exact hReached
      · exact Nat.le_trans hReached (hOrder.1 c.line (List.mem_map_of_mem hc))

/-- The line of a node under a rule. -/
def ruleNodeLine : Gherkin.Background ⊕ Gherkin.Scenario → Nat
  | .inl b => b.line
  | .inr c => c.line

/-- The background of a rule is put where its line belongs. -/
theorem pairwise_ruleNodes {n : Gherkin.Rule}
    (hOrder : (n.scenarios.map (·.line)).Pairwise (· ≤ ·)) :
    ((ruleNodes n).map ruleNodeLine).Pairwise (· ≤ ·) := by
  have hScenarios : ∀ cs : List Gherkin.Scenario,
      (cs.map Sum.inr).map ruleNodeLine = cs.map (·.line) := fun cs => List.map_map
  unfold ruleNodes
  cases n.background with
  | none => rwa [hScenarios]
  | some b =>
    rw [List.map_append, List.map_cons, hScenarios, hScenarios, List.pairwise_append,
      List.pairwise_cons]
    let isInFront : Gherkin.Scenario → Bool := fun c => decide (c.line < b.line)
    have hFront : ∀ c ∈ n.scenarios.takeWhile isInFront, c.line < b.line := fun c hc =>
      of_decide_eq_true (List.mem_takeWhile_imp (p := isInFront) hc)
    have hBack : ∀ c ∈ n.scenarios.dropWhile isInFront, b.line ≤ c.line := fun c hc =>
      le_of_mem_dropWhile hOrder hc
    refine ⟨hOrder.sublist ((List.takeWhile_sublist _).map _),
      ⟨?_, hOrder.sublist ((List.dropWhile_sublist _).map _)⟩, ?_⟩
    · rw [List.forall_mem_map]
      exact hBack
    · rw [List.forall_mem_map]
      intro c hc
      rw [List.forall_mem_cons, List.forall_mem_map]
      refine ⟨Nat.le_of_lt (hFront c hc), fun d hd => ?_⟩
      exact Nat.le_trans (Nat.le_of_lt (hFront c hc)) (hBack d hd)

theorem HeaderFrom.line_eq {line : Nat} {location : Location} {keyword name description : String}
    (h : s.HeaderFrom line location keyword name description) :
    location.line = s.text.headerLine line := by
  rw [h.location]
  rfl

end Sheet

def FeatureChild.line : FeatureChild → Nat
  | background b => b.location.line
  | rule r => r.location.line
  | scenario s => s.location.line

def RuleChild.line : RuleChild → Nat
  | background b => b.location.line
  | scenario s => s.location.line

namespace Sheet

variable {s : Sheet}

/-- Nodes in the order of their lines have their headers in this order. -/
theorem pairwise_line {α β : Type} {R : α → β → Prop} {line : α → Nat} {line' : β → Nat}
    (hLine : ∀ {n d}, R n d → line' d = s.text.headerLine (line n)) {ns : List α} {ds : List β}
    (h : List.Forall₂ R ns ds) (hOrder : (ns.map line).Pairwise (· ≤ ·)) :
    (ds.map line').Pairwise (· ≤ ·) := by
  have hLines : ds.map line' = (ns.map line).map s.text.headerLine := by
    induction h with
    | nil => rfl
    | cons hFirst _ ih =>
      rw [List.map_cons, hLine hFirst, ih (List.Pairwise.of_cons hOrder)]
      rfl
  rw [hLines, List.pairwise_map]
  exact hOrder.imp s.text.headerLine_mono

theorem ordered_feature (language : String) (f : Gherkin.Feature) (k : Nat) :
    (((s.feature language f).run k).1.children.map FeatureChild.line).Pairwise (· ≤ ·) := by
  refine pairwise_line (s := s) ?_ (s.nodesFrom (featureNodes f) k) (pairwise_featureNodes f)
  rintro _ _ (h | h | h)
  · exact h.header.line_eq
  · exact h.header.line_eq
  · exact h.header.line_eq

theorem ordered_rule {n : Gherkin.Rule} (hOrder : (n.scenarios.map (·.line)).Pairwise (· ≤ ·))
    (k : Nat) : (((s.rule n).run k).1.children.map RuleChild.line).Pairwise (· ≤ ·) := by
  refine pairwise_line (s := s) ?_ (s.ruleNodesFrom n k) (pairwise_ruleNodes hOrder)
  rintro _ _ (h | h)
  · exact h.header.line_eq
  · exact h.header.line_eq

/-- The rules of a feature are built from the rules of the tree. -/
theorem exists_rule_of_mem {language : String} {f : Gherkin.Feature} {k : Nat} {r : Rule}
    (h : FeatureChild.rule r ∈ ((s.feature language f).run k).1.children) :
    ∃ n ∈ f.rules, ∃ j, r = ((s.rule n).run j).1 := by
  obtain ⟨node, hNode, j, hRule⟩ := exists_of_mem_mapM (f := s.child) (l := featureNodes f) h
  have hMem := (featureNodes_perm f).mem_iff.mp hNode
  cases node with
  | background n => exact absurd hRule (by simp [child])
  | scenario n => exact absurd hRule (by simp [child])
  | rule n =>
    refine ⟨n, by simpa using hMem, j, ?_⟩
    exact FeatureChild.rule.inj hRule

end Sheet

/-- **A document has one node for every node of its feature tree and no other, and the children of
the feature and of every rule are in the order of the file**, as long as the tree lists the scenarios
of every rule in this order. -/
theorem Document.emits_tree (t : SourceText) (language : String) (f : Gherkin.Feature)
    (hRules : ∀ r ∈ f.rules, (r.scenarios.map (·.line)).Pairwise (· ≤ ·)) :
    let d := Document.ofTree t language f
    Sheet.FeatureFrom ⟨t, f.lines t⟩ f d.feature ∧
      (d.feature.children.map FeatureChild.line).Pairwise (· ≤ ·) ∧
      ∀ r, FeatureChild.rule r ∈ d.feature.children →
        (r.children.map RuleChild.line).Pairwise (· ≤ ·) := by
  intro d
  refine ⟨Sheet.featureFrom _ language f 0, Sheet.ordered_feature language f 0, fun r hr => ?_⟩
  obtain ⟨n, hn, k, rfl⟩ := Sheet.exists_rule_of_mem hr
  exact Sheet.ordered_rule (hRules n hn) k

/-! A background between two scenarios of a rule. -/

def backgroundBetweenText : SourceText :=
  .ofLines (["Feature: f", "  Rule: r", "    Scenario: a", "      Given 1", "    @t",
    "    Background:", "      Given 2", "    Scenario: b"].map String.toList)

def backgroundBetweenRule : Gherkin.Rule :=
  ⟨2, [], some ⟨5, [⟨7, "Given ", .given, "2", none, none⟩]⟩,
    [⟨3, [], [⟨4, "Given ", .given, "1", none, none⟩], []⟩, ⟨8, [], [], []⟩]⟩

def backgroundBetweenTree : Gherkin.Feature := ⟨1, [], none, [], [backgroundBetweenRule]⟩

theorem Document.emits_tree_background_between :
    (∀ r ∈ backgroundBetweenTree.rules, (r.scenarios.map (·.line)).Pairwise (· ≤ ·)) ∧
    let d := Document.ofTree backgroundBetweenText "en" backgroundBetweenTree
    Sheet.FeatureFrom ⟨backgroundBetweenText, backgroundBetweenTree.lines backgroundBetweenText⟩
        backgroundBetweenTree d.feature ∧
      (d.feature.children.map FeatureChild.line).Pairwise (· ≤ ·) ∧
      (∀ r, FeatureChild.rule r ∈ d.feature.children →
        (r.children.map RuleChild.line).Pairwise (· ≤ ·)) ∧
      d.feature.rules.map (·.children.map RuleChild.line) = [[3, 6, 8]] := by
  have hRules : ∀ r ∈ backgroundBetweenTree.rules,
      (r.scenarios.map (·.line)).Pairwise (· ≤ ·) := by decide
  obtain ⟨hFeature, hChildren, hRule⟩ :=
    emits_tree backgroundBetweenText "en" backgroundBetweenTree hRules
  exact ⟨hRules, hFeature, hChildren, hRule, by decide +kernel⟩

end Scenarist
