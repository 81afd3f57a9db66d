import Mathlib.Data.List.Induction
import Scenarist.Proofs.Entries
import Scenarist.Proofs.Outline.Instances

/-!
# The tags of an outline's scenarios

A concrete scenario has the tags of its outline and behind them those of its own table that bring a
new name.  `newTags` says which ones these are by their places in the table, without the list that
`tagUnion` builds on the way.

* `tagUnion_eq_append_newTags`: nothing but new tags is added.
* `mem_labels_tagUnion_iff`: no label is lost where a tag is left out.
* `expandTable_eq_map_renderRow`: the concrete scenarios of one table, without the other tables.
* `tags_of_own_table`: their tags and labels, which no other table has a part in.
-/

namespace Scenarist

/-- The label of a tag depends on its name only. -/
theorem Tag.label_eq_of_name_eq {t u : Tag} (h : t.name = u.name) : t.label = u.label := by
  rw [Tag.label, Tag.label, h]

namespace Outline

variable {tags extra : List Tag} {t : Tag}

/-! ### Tags with new names -/

/-- A list has a tag of the same name. -/
def NamedIn (t : Tag) (tags : List Tag) : Prop := ∃ seen ∈ tags, seen.name = t.name

instance (t : Tag) (tags : List Tag) : Decidable (NamedIn t tags) :=
  inferInstanceAs (Decidable (∃ seen ∈ tags, _))

theorem namedIn_append {tags' : List Tag} :
    NamedIn t (tags ++ tags') ↔ NamedIn t tags ∨ NamedIn t tags' := by
  simp only [NamedIn, List.mem_append, or_and_right, exists_or]

theorem namedIn_singleton {u : Tag} : NamedIn t [u] ↔ u.name = t.name := by
  simp only [NamedIn, List.mem_singleton, exists_eq_left]

/-- The tags of a list whose names belong to no tag of `tags` and to none in front of them. -/
def newTags (tags extra : List Tag) : List Tag :=
  (extra.zipIdx.filter fun p => ¬ NamedIn p.1 (tags ++ extra.take p.2)).map Prod.fst

theorem tagUnion_concat (tags extra : List Tag) (t : Tag) : tagUnion tags (extra ++ [t]) =
    if NamedIn t (tagUnion tags extra) then tagUnion tags extra
    else tagUnion tags extra ++ [t] := by
  have hLast : tagUnion tags (extra ++ [t]) =
      if (tagUnion tags extra).any fun seen => seen.name == t.name then tagUnion tags extra
      else tagUnion tags extra ++ [t] := by
    rw [tagUnion, List.foldl_append]
    rfl
  refine hLast.trans (if_congr ?_ rfl rfl)
  simp only [List.any_eq_true, beq_iff_eq, NamedIn]

theorem namedIn_tagUnion_iff : NamedIn t (tagUnion tags extra) ↔ NamedIn t (tags ++ extra) := by
  induction extra using List.reverseRecOn with
  | nil => rw [List.append_nil]; rfl
  | append_singleton extra u ih =>
    rw [tagUnion_concat, ← List.append_assoc, namedIn_append, ← ih, namedIn_singleton]
    split
    · next hOld =>
      refine ⟨Or.inl, fun h => h.elim id fun hName => ?_⟩
      obtain ⟨seen, hSeen, hSame⟩ := hOld
      exact ⟨seen, hSeen, hSame.trans hName⟩
    · rw [namedIn_append, namedIn_singleton]

theorem newTags_concat (tags extra : List Tag) (t : Tag) : newTags tags (extra ++ [t]) =
    newTags tags extra ++ if NamedIn t (tags ++ extra) then [] else [t] := by
  -- what stands behind a tag does not count for it
  have hFront : extra.zipIdx.filter (fun p => ¬ NamedIn p.1 (tags ++ (extra ++ [t]).take p.2)) =
      extra.zipIdx.filter fun p => ¬ NamedIn p.1 (tags ++ extra.take p.2) := by
    refine List.filter_congr fun p hp => ?_
    have hPlace := (List.getElem?_eq_some_iff.mp (List.mem_zipIdx_iff_getElem?.mp hp)).1
    rw [List.take_append_of_le_length (Nat.le_of_lt hPlace)]
  rw [newTags, List.zipIdx_append, List.filter_append, List.map_append, hFront, newTags]
  congr 1
  rw [Nat.zero_add, List.zipIdx_singleton, List.filter_singleton,
    List.take_append_of_le_length (Nat.le_refl _), List.take_length]
  split <;> simp_all

/-- **A union adds the tags with new names**, in their order, behind those that are there. -/
theorem tagUnion_eq_append_newTags (tags extra : List Tag) :
    tagUnion tags extra = tags ++ newTags tags extra := by
  induction extra using List.reverseRecOn with
  | nil => exact (List.append_nil tags).symm
  | append_singleton extra t ih =>
    rw [tagUnion_concat, newTags_concat, ← List.append_assoc, ← ih]
    simp only [namedIn_tagUnion_iff]
    split
    · rw [List.append_nil]
    · rfl

/-- A tag is left out only where another one has its name, and so its label. -/
theorem mem_labels_tagUnion_iff {label : String} : label ∈ (tagUnion tags extra).map Tag.label ↔
    label ∈ tags.map Tag.label ∨ label ∈ extra.map Tag.label := by
  rw [← List.mem_append, ← List.map_append]
  constructor
  · intro h
    obtain ⟨t, ht, rfl⟩ := List.mem_map.mp h
    exact List.mem_map_of_mem (List.mem_append.mpr (mem_or_mem_of_mem_tagUnion ht))
  · intro h
    obtain ⟨t, ht, rfl⟩ := List.mem_map.mp h
    obtain ⟨seen, hSeen, hName⟩ := namedIn_tagUnion_iff.mpr ⟨t, ht, rfl⟩
    exact List.mem_map.mpr ⟨seen, hSeen, Tag.label_eq_of_name_eq hName⟩

end Outline

/-! ### The scenarios of one table -/

/-- The concrete scenarios of the rows of one table. -/
def Scenario.expandTable (s : Scenario) (table : Nat) : List ConcreteScenario :=
  s.expand.filter fun c => c.origin.any fun row => row.tableIndex == table

/-- What belongs to one index of a list, when nothing belongs to the others. -/
theorem flatMap_zipIdx_of_index {α β : Type} {l : List α} {n : Nat} {x : α} (hx : l[n]? = some x)
    (k : Nat) {f : α × Nat → List β} (hf : ∀ y i, i ≠ k + n → f (y, i) = []) :
    (l.zipIdx k).flatMap f = f (x, k + n) := by
  induction l generalizing n k with
  | nil => cases hx
  | cons y l ih =>
    rw [List.zipIdx_cons, List.flatMap_cons]
    cases n with
    | zero =>
      obtain rfl : y = x := Option.some.inj hx
      have hRest : (l.zipIdx (k + 1)).flatMap f = [] := by
        refine List.flatMap_eq_nil_iff.mpr fun (z, i) hz => hf z i ?_
        have := List.le_snd_of_mem_zipIdx hz
        omega
      rw [hRest, List.append_nil, Nat.add_zero]
    | succ n =>
      have hNext : k + (n + 1) = k + 1 + n := by omega
      rw [hf y k (by omega), List.nil_append, hNext]
      exact ih hx (k + 1) fun z i hi => hf z i (by omega)

/-- The concrete scenarios of a table are those of its rows. -/
theorem Scenario.expandTable_eq_map_renderRow {s : Scenario} {table : Nat} {e : ExamplesTable}
    (he : s.examples[table]? = some e) : s.expandTable table =
      e.tableBody.zipIdx.map fun p => Outline.renderRow s e table p.2 p.1 := by
  have hTemplated : s.isTemplated = true := by
    rw [Scenario.isTemplated, Bool.not_eq_true', List.isEmpty_eq_false_iff]
    exact List.ne_nil_of_mem (List.mem_of_getElem? he)
  rw [expandTable, expand, if_pos hTemplated, List.filter_flatMap,
    flatMap_zipIdx_of_index he 0 fun e' i hi => ?_]
  · rw [Nat.zero_add]
    refine List.filter_eq_self.mpr fun c hc => ?_
    obtain ⟨p, _, rfl⟩ := List.mem_map.mp hc
    exact beq_self_eq_true table
  · refine List.filter_eq_nil_iff.mpr fun c hc => ?_
    obtain ⟨p, _, rfl⟩ := List.mem_map.mp hc
    rw [Nat.zero_add] at hi
    simpa [Outline.renderRow] using hi

/-- The second scenario differs from the first one in tables of examples only, and not in the one at
an index. -/
structure Scenario.SameButOtherTables (table : Nat) (s s' : Scenario) : Prop where
  rest : s' = { s with examples := s'.examples }
  own : s'.examples[table]? = s.examples[table]?

theorem Scenario.SameButOtherTables.renderRow_eq {table : Nat} {s s' : Scenario}
    (h : SameButOtherTables table s s') (e : ExamplesTable) (row : Nat) (r : Row) :
    Outline.renderRow s' e table row r = Outline.renderRow s e table row r := by
  rw [h.rest]
  rfl

/-! ### Tags and labels -/

/-- The tags of a concrete scenario are those of the outline and the new ones of one table, and its
labels, in ascending order, are all labels of both. -/
structure ConcreteScenario.TaggedBy (c : ConcreteScenario) (s : Scenario) (e : ExamplesTable) :
    Prop where
  tags : c.scenario.tags = s.tags ++ Outline.newTags s.tags e.tags
  ascending : c.tagLabels.Pairwise (· < ·)
  labels : ∀ label, label ∈ c.tagLabels ↔ label ∈ s.tagNames ∨ label ∈ e.tags.map Tag.label

theorem ConcreteScenario.mem_tagLabels_iff {c : ConcreteScenario} {label : String} :
    label ∈ c.tagLabels ↔ label ∈ c.scenario.tagNames := by
  rw [tagLabels, Entries.mem_names_ofList_iff, Entries.names, List.map_map]
  exact iff_of_eq (congrArg (label ∈ ·) (List.map_id' _))

theorem Outline.taggedBy_renderRow (s : Scenario) (e : ExamplesTable) (table row : Nat) (r : Row) :
    (renderRow s e table row r).TaggedBy s e where
  tags := tagUnion_eq_append_newTags s.tags e.tags
  ascending := Entries.ascending_ofList _
  labels _ := ConcreteScenario.mem_tagLabels_iff.trans mem_labels_tagUnion_iff

/-- **The tags of the concrete scenarios of a table.**  There is one concrete scenario for each row
of the table.  Its tags are the tags of the outline as they are, and behind them, in table order,
the first tag of each name that no tag of the outline has; its labels are the labels of both.  Other
tables, however many there are and whatever is in them, change nothing in these scenarios. -/
theorem Scenario.tags_of_own_table {s : Scenario} {table : Nat} {e : ExamplesTable}
    (he : s.examples[table]? = some e) :
    List.Forall₂ (fun row c => Outline.render s e table row = some c ∧ c.TaggedBy s e)
      (List.range e.tableBody.length) (s.expandTable table) ∧
    ∀ s', SameButOtherTables table s s' → s'.expandTable table = s.expandTable table ∧
      ∀ row, Outline.render s' e table row = Outline.render s e table row := by
  refine ⟨?_, fun s' h => ⟨?_, fun row => ?_⟩⟩
  · rw [expandTable_eq_map_renderRow he, range_length_eq_map_snd, List.forall₂_map_left_iff,
      List.forall₂_map_right_iff, List.forall₂_same]
    intro p hp
    refine ⟨?_, Outline.taggedBy_renderRow s e table p.2 p.1⟩
    rw [Outline.render, List.mem_zipIdx_iff_getElem?.mp hp, Option.map_some]
  · rw [expandTable_eq_map_renderRow he, expandTable_eq_map_renderRow (h.own.trans he)]
    exact List.map_congr_left fun p _ => h.renderRow_eq e p.2 p.1
  · rw [Outline.render, Outline.render]
    exact congrArg (Option.map · _) (funext fun r => h.renderRow_eq e row r)

/-! A table that repeats a tag of the outline and one of its own, between two other tables. -/

def tagNamed (id name : String) : Tag := ⟨id, ⟨1, 1⟩, name⟩

def taggedTable (tags : List Tag) (rows : List Row) : ExamplesTable :=
  ⟨"e", ⟨1, 1⟩, tags, "Examples", none, "", none, rows⟩

def repeatingTable : ExamplesTable :=
  taggedTable [tagNamed "3" "@b", tagNamed "4" "@c", tagNamed "5" "@c", tagNamed "6" "@d"]
    [⟨"7", ⟨1, 1⟩, []⟩, ⟨"8", ⟨1, 1⟩, []⟩]

def taggedOutline (examples : List ExamplesTable) : Scenario :=
  ⟨"s", ⟨1, 1⟩, [tagNamed "0" "@b", tagNamed "1" "@a"], "Scenario Outline", "", "", [], examples⟩

theorem Scenario.tags_of_own_table_repeating :
    let s := taggedOutline [taggedTable [tagNamed "2" "@x"] [], repeatingTable]
    let s' := taggedOutline [taggedTable [tagNamed "9" "@c"] [⟨"10", ⟨1, 1⟩, []⟩], repeatingTable,
      taggedTable [] []]
    s.examples[1]? = some repeatingTable ∧ SameButOtherTables 1 s s' ∧
    (s.expandTable 1).map (fun c => (c.scenario.tags.map Tag.id, c.tagLabels)) =
      List.replicate 2 (["0", "1", "4", "6"], ["a", "b", "c", "d"]) ∧
    List.Forall₂ (fun row c => Outline.render s repeatingTable 1 row = some c ∧
      c.TaggedBy s repeatingTable) [0, 1] (s.expandTable 1) ∧
    s'.expandTable 1 = s.expandTable 1 := by
  intro s s'
  have hTable : s.examples[1]? = some repeatingTable := rfl
  have hOther : SameButOtherTables 1 s s' := ⟨rfl, rfl⟩
  have hTags : (s.expandTable 1).map (fun c => (c.scenario.tags.map Tag.id, c.tagLabels)) =
      List.replicate 2 (["0", "1", "4", "6"], ["a", "b", "c", "d"]) := by decide +kernel
  obtain ⟨hRows, hSame⟩ := tags_of_own_table hTable
  exact ⟨hTable, hOther, hTags, hRows, (hSame s' hOther).1⟩

end Scenarist
