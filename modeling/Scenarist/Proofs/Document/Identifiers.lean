import Mathlib.Data.List.Nodup
import Scenarist.Document.OfTree
import Scenarist.Proofs.Number.Decimal

/-!
# Identifiers in documents

`IdTree` is what is left of a document when only identifiers count: its nodes, each with the nodes
inside it, in the order in which they are complete.

* `Numbered`: nodes have consecutive numbers in this order.  Every function that builds a part of a
  document numbers that part (`numbered_row` up to `numbered_child`).
* `Inside.numeralLt`: numbered so, a node has a greater number than the nodes inside it.
* `identifiers_ofTree`: the identifiers of a document are the numerals from zero on.
-/

namespace Scenarist

/-! ### Trees of identifiers -/

/-- A node with an identifier and the nodes inside it, in the order in which they are complete. -/
inductive IdTree
  | node (id : String) (inside : List IdTree)

namespace IdTree

def id : IdTree → String
  | node id _ => id

/-- The first node is inside the second, at any depth. -/
inductive Inside : IdTree → IdTree → Prop
  | child {id : String} {ts : List IdTree} {t : IdTree} : t ∈ ts → Inside t (node id ts)
  | deep {id : String} {ts : List IdTree} {t u : IdTree} : t ∈ ts → Inside u t →
      Inside u (node id ts)

mutual

/-- The identifiers of a node and of all nodes inside it, in the order in which they are complete. -/
def ids : IdTree → List String
  | node id inside => idsAll inside ++ [id]

def idsAll : List IdTree → List String
  | [] => []
  | t :: ts => ids t ++ idsAll ts

end

theorem idsAll_eq_flatMap (ts : List IdTree) : idsAll ts = ts.flatMap ids := by
  induction ts with
  | nil => rfl
  | cons t ts ih => rw [idsAll, ih, List.flatMap_cons]

theorem idsAll_append (ts us : List IdTree) : idsAll (ts ++ us) = idsAll ts ++ idsAll us := by
  rw [idsAll_eq_flatMap, idsAll_eq_flatMap, idsAll_eq_flatMap, List.flatMap_append]

theorem idsAll_singleton (t : IdTree) : idsAll [t] = ids t := List.append_nil _

theorem ids_sublist_of_mem {t : IdTree} {ts : List IdTree} (h : t ∈ ts) :
    (ids t).Sublist (idsAll ts) := by
  rw [idsAll_eq_flatMap]
  exact List.sublist_flatten_of_mem (List.mem_map_of_mem h)

theorem Inside.ids_sublist {t u : IdTree} (h : Inside u t) : (ids u).Sublist (ids t) := by
  induction h with
  | child hMem => exact (ids_sublist_of_mem hMem).trans (List.sublist_append_left _ _)
  | deep hMem _ ih =>
    exact (ih.trans (ids_sublist_of_mem hMem)).trans (List.sublist_append_left _ _)

theorem id_mem_ids (t : IdTree) : t.id ∈ ids t := by
  cases t with
  | node id inside => exact List.mem_append_right _ (List.mem_singleton.mpr rfl)

/-- The second identifier is the numeral of a greater number. -/
def NumeralLt (x y : String) : Prop := ∃ m n : Nat, x = toString m ∧ y = toString n ∧ m < n

/-- When the identifiers ascend in the order in which the nodes are complete, a node has a greater
number than the nodes inside it. -/
theorem Inside.numeralLt {t u : IdTree} (h : Inside u t) (hAscending : (ids t).Pairwise NumeralLt) :
    NumeralLt u.id t.id := by
  obtain ⟨id, inside⟩ := t
  have hBefore := (List.pairwise_append.mp hAscending).2.2
  refine hBefore u.id ?_ id (List.mem_singleton.mpr rfl)
  cases h with
  | child hMem => exact (ids_sublist_of_mem hMem).subset (id_mem_ids u)
  | deep hMem hDeep =>
    exact (hDeep.ids_sublist.trans (ids_sublist_of_mem hMem)).subset (id_mem_ids u)

/-! ### Consecutive numbers -/

/-- In the order in which they are complete, the nodes have the numbers from `m` up to `n`. -/
def Numbered (m n : Nat) (ts : List IdTree) : Prop :=
  m ≤ n ∧ idsAll ts = (List.range' m (n - m)).map toString

theorem Numbered.nil (n : Nat) : Numbered n n [] := by
  refine ⟨Nat.le_refl n, ?_⟩
  rw [Nat.sub_self]
  rfl

theorem Numbered.append {k m n : Nat} {ts us : List IdTree} (hts : Numbered k m ts)
    (hus : Numbered m n us) : Numbered k n (ts ++ us) := by
  obtain ⟨hkm, hts⟩ := hts
  obtain ⟨hmn, hus⟩ := hus
  refine ⟨Nat.le_trans hkm hmn, ?_⟩
  have hSplit : n - k = (m - k) + (n - m) := by omega
  have hNext : k + 1 * (m - k) = m := by omega
  rw [idsAll_append, hts, hus, ← List.map_append, hSplit, ← List.range'_append, hNext]

/-- A node takes the number that follows those of the nodes inside it. -/
theorem Numbered.node {m n : Nat} {ts : List IdTree} (h : Numbered m n ts) :
    Numbered m (n + 1) [.node (toString n) ts] := by
  obtain ⟨hmn, hts⟩ := h
  refine ⟨Nat.le_succ_of_le hmn, ?_⟩
  have hLast : n + 1 - m = (n - m) + 1 := by omega
  have hNext : m + 1 * (n - m) = n := by omega
  rw [idsAll_singleton, ids, hts, hLast, List.range'_concat, List.map_append, hNext]
  rfl

theorem Numbered.pairwise {m n : Nat} {ts : List IdTree} (h : Numbered m n ts) :
    (idsAll ts).Pairwise NumeralLt := by
  rw [h.2, List.pairwise_map]
  exact (List.pairwise_lt_range' 1).imp fun hLt => ⟨_, _, rfl, rfl, hLt⟩

end IdTree

/-! ### Documents as trees of identifiers -/

def Tag.idTree (t : Tag) : IdTree := .node t.id []

def Row.idTree (r : Row) : IdTree := .node r.id []

/-- The rows of a step are those of its table. -/
def Step.rows (s : Step) : List Row := (s.dataTable.map (·.rows)).getD []

def Step.idTree (s : Step) : IdTree := .node s.id (s.rows.map Row.idTree)

/-- The rows of examples, the header first. -/
def ExamplesTable.rows (e : ExamplesTable) : List Row := e.tableHeader.toList ++ e.tableBody

def ExamplesTable.idTree (e : ExamplesTable) : IdTree :=
  .node e.id (e.rows.map Row.idTree ++ e.tags.map Tag.idTree)

def Background.idTree (b : Background) : IdTree := .node b.id (b.steps.map Step.idTree)

def Scenario.idTree (s : Scenario) : IdTree :=
  .node s.id (s.steps.map Step.idTree ++ s.examples.map ExamplesTable.idTree ++
    s.tags.map Tag.idTree)

def RuleChild.idTree : RuleChild → IdTree
  | background b => b.idTree
  | scenario s => s.idTree

def Rule.idTree (r : Rule) : IdTree :=
  .node r.id (r.children.map RuleChild.idTree ++ r.tags.map Tag.idTree)

def FeatureChild.idTree : FeatureChild → IdTree
  | background b => b.idTree
  | rule r => r.idTree
  | scenario s => s.idTree

/-- The nodes right under a document; the feature itself has no identifier. -/
def Document.idTrees (d : Document) : List IdTree :=
  d.feature.children.map FeatureChild.idTree ++ d.feature.tags.map Tag.idTree

/-! ### What the parts of a document are numbered -/

namespace Sheet

open IdTree

/-- What is built one after another is numbered one after another. -/
theorem numbered_mapM {α β : Type} {f : α → IdSupply β} (view : β → IdTree)
    (h : ∀ a k, Numbered k ((f a).run k).2 [view ((f a).run k).1]) (l : List α) (k : Nat) :
    Numbered k ((l.mapM f).run k).2 (((l.mapM f).run k).1.map view) := by
  induction l generalizing k with
  | nil => exact .nil k
  | cons a l ih =>
    rw [List.mapM_cons]
    exact (h a k).append (ih ((f a).run k).2)

variable (s : Sheet) (k : Nat)

theorem numbered_row (line : Option Nat) (fallback : Location) (values : List String) :
    Numbered k ((s.row line fallback values).run k).2
      [((s.row line fallback values).run k).1.idTree] :=
  (Numbered.nil k).node

theorem numbered_rows (lines : List Nat) (fallback : Location) (table : List (List String)) :
    Numbered k ((s.rows lines fallback table).run k).2
      (((s.rows lines fallback table).run k).1.map Row.idTree) :=
  numbered_mapM Row.idTree (fun _ k => s.numbered_row k _ _ _) _ k

theorem numbered_tags (n : Nat) (names : List String) :
    Numbered k ((s.tags n names).run k).2 (((s.tags n names).run k).1.map Tag.idTree) := by
  refine numbered_mapM Tag.idTree ?_ _ k
  rintro ⟨location, name⟩ k
  exact (Numbered.nil k).node

theorem numbered_step (n : Gherkin.Step) (keyword : String) (type : KeywordType) :
    Numbered k ((s.step n keyword type).run k).2 [((s.step n keyword type).run k).1.idTree] := by
  have hRows : Numbered k ((n.table.mapM (s.dataTable n.line)).run k).2
      (((((n.table.mapM (s.dataTable n.line)).run k).1.map (·.rows)).getD []).map
        Row.idTree) := by
    cases n.table with
    | none => exact .nil k
    | some table => exact s.numbered_rows k _ _ table
  exact hRows.node

theorem numbered_steps (b : StepBlock) (ns : List Gherkin.Step) :
    Numbered k ((s.steps b ns).run k).2 (((s.steps b ns).run k).1.map Step.idTree) := by
  induction ns generalizing b k with
  | nil => exact .nil k
  | cons n ns ih =>
    rw [steps]
    generalize String.ofList (Text.trim n.keyword.toList) = word
    generalize b.keywordType word n.type = typed
    obtain ⟨type, b'⟩ := typed
    exact (s.numbered_step k n word type).append (ih _ b')

theorem numbered_background (n : Gherkin.Background) :
    Numbered k ((s.background n).run k).2 [((s.background n).run k).1.idTree] :=
  (s.numbered_steps k .start n.steps).node

theorem toList_head?_append_tail {α : Type} (l : List α) : l.head?.toList ++ l.tail = l := by
  cases l <;> rfl

theorem numbered_examples (n : Gherkin.Examples) :
    Numbered k ((s.examples n).run k).2 [((s.examples n).run k).1.idTree] := by
  have hRows := s.numbered_rows k (s.exampleLines (s.header n.line).1)
    ⟨(s.header n.line).1 + 1, 1⟩ (n.table.getD [])
  rw [← toList_head?_append_tail ((s.rows _ _ _).run k).1] at hRows
  exact (hRows.append (s.numbered_tags _ _ n.tags)).node

theorem numbered_scenario (n : Gherkin.Scenario) :
    Numbered k ((s.scenario n).run k).2 [((s.scenario n).run k).1.idTree] :=
  (((s.numbered_steps k .start n.steps).append
    (numbered_mapM _ (fun e k => s.numbered_examples k e) n.examples _)).append
    (s.numbered_tags _ _ n.tags)).node

theorem numbered_rule (n : Gherkin.Rule) :
    Numbered k ((s.rule n).run k).2 [((s.rule n).run k).1.idTree] := by
  refine Numbered.node (.append (numbered_mapM RuleChild.idTree ?_ (ruleNodes n) k)
    (s.numbered_tags _ _ n.tags))
  rintro (b | c) k
  · exact s.numbered_background k b
  · exact s.numbered_scenario k c

theorem numbered_child (n : Node) :
    Numbered k ((s.child n).run k).2 [((s.child n).run k).1.idTree] := by
  cases n with
  | background n => exact s.numbered_background k n
  | scenario n => exact s.numbered_scenario k n
  | rule n => exact s.numbered_rule k n

end Sheet

open IdTree in
/-- The nodes of a document are numbered from zero on. -/
theorem Document.numbered_ofTree (t : SourceText) (language : String) (f : Gherkin.Feature) :
    ∃ n, Numbered 0 n (Document.ofTree t language f).idTrees := by
  let s : Sheet := ⟨t, f.lines t⟩
  exact ⟨_, (Sheet.numbered_mapM FeatureChild.idTree (fun n k => s.numbered_child k n)
    (Sheet.featureNodes f) 0).append (s.numbered_tags _ _ f.tags)⟩

open IdTree in
/-- **The identifiers of a document are the numerals from zero on, one for each node that has an
identifier, and every node has a greater number than the nodes inside it.** -/
theorem Document.identifiers_ofTree (t : SourceText) (language : String) (f : Gherkin.Feature) :
    let trees := (Document.ofTree t language f).idTrees
    (idsAll trees).Nodup ∧
      idsAll trees = (List.range (idsAll trees).length).map toString ∧
      ∀ u v, (u ∈ trees ∨ ∃ w ∈ trees, Inside u w) → Inside v u → NumeralLt v.id u.id := by
  intro trees
  obtain ⟨n, hNumbered⟩ := numbered_ofTree t language f
  have hIds : idsAll trees = (List.range n).map toString := by
    rw [List.range_eq_range']
    exact hNumbered.2
  refine ⟨?_, ?_, fun u v hAmong hInside => hInside.numeralLt ?_⟩
  · rw [hIds]
    exact List.nodup_range.map Number.toString_injective
  · rw [hIds, List.length_map, List.length_range]
  · refine hNumbered.pairwise.sublist ?_
    rcases hAmong with hTop | ⟨w, hTop, hDeep⟩
    · exact ids_sublist_of_mem hTop
    · exact hDeep.ids_sublist.trans (ids_sublist_of_mem hTop)

end Scenarist
