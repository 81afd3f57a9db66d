import Scenarist.Proofs.Document.Table
import Scenarist.Proofs.Entries
import Scenarist.Proofs.Refusal
import Scenarist.Run.Preparation

/-!
# The arguments of a step

A parameter that the pattern binds has the value that is bound.  Any other parameter has what
`Supplied` says: under a reserved name what the step itself has there, and only under other names a
fixture.  `Assembly` says how the parameters of a definition are gone through, with one constructor
for each ending.

* `supply_eq_iff`: what is supplied for one parameter.
* `exists_filled`, `foldlM_fill_eq_error`: what is filled in for a list of parameters.
* `assemble_eq_iff`: the assembly ends as `Assembly` says, and in no other way.
* `assemble_congr`: it asks for no other fixtures than it has to.
-/

namespace Scenarist

/-! ### What a step has itself -/

/-- The names under which a step has something itself. -/
def reservedNames : List String :=
  ["datatable", "datatable_transposed", "datatable_columns", "docstring"]

/-- What a step has itself under a name, or why it has nothing there. -/
inductive Step.Own (s : Step) : String → Except ExecutionError Value → Prop
  | rows {t : DataTable} (table : s.dataTable = some t) : Own s "datatable" (.ok (.rows t.values))
  | transposedRows {t : DataTable} (table : s.dataTable = some t) :
      Own s "datatable_transposed" (.ok (.rows t.transpose.values))
  | columns {t : DataTable} {found : List (String × List String)} (table : s.dataTable = some t)
      (columns : t.columns = .ok found) : Own s "datatable_columns" (.ok (.columns found))
  | tooFewRows {t : DataTable} (table : s.dataTable = some t) (few : t.rows.length < 2) :
      Own s "datatable_columns" (.error (.tableShape ⟨t.location.line, t.rows.length⟩))
  | docString {d : DocString} (block : s.docString = some d) :
      Own s "docstring" (.ok (.text d.content))
  | noTable {name : String}
      (shown : name ∈ ["datatable", "datatable_transposed", "datatable_columns"])
      (block : s.dataTable = none) : Own s name (.error (.missingBlock name .dataTable))
  | noDocString (block : s.docString = none) :
      Own s "docstring" (.error (.missingBlock "docstring" .docString))

namespace ReservedParameter

theorem name_of_ofName? {name : String} {p : ReservedParameter} (h : ofName? name = some p) :
    p.name = name := by
  simpa using List.find?_some h

theorem ofName?_eq_none_iff {name : String} : ofName? name = none ↔ name ∉ reservedNames := by
  have hNames : reservedNames = all.map ReservedParameter.name := rfl
  rw [hNames, ofName?, List.find?_eq_none]
  simp

variable {p : ReservedParameter} {s : Step}

theorem ofStep_of_table {t : DataTable} (hBlock : p.block = .dataTable)
    (hTable : s.dataTable = some t) : p.ofStep s = p.ofTable t := by
  rw [ofStep, hBlock, hTable]

theorem ofStep_of_no_table (hBlock : p.block = .dataTable) (hTable : s.dataTable = none) :
    p.ofStep s = .error (.missingBlock p.name .dataTable) := by
  rw [ofStep, hBlock, hTable]

theorem ofTable_columns_of_ok {t : DataTable} {found : List (String × List String)}
    (h : t.columns = .ok found) : columns.ofTable t = .ok (.columns found) := by
  rw [ofTable, h]
  rfl

theorem ofTable_columns_of_few {t : DataTable} (h : t.rows.length < 2) :
    columns.ofTable t = .error (.tableShape ⟨t.location.line, t.rows.length⟩) := by
  rw [ofTable, DataTable.columns_eq_error_iff.mpr ⟨h, rfl⟩]
  rfl

/-- What a step provides for a reserved parameter is what it has itself under the name. -/
theorem own_ofStep (p : ReservedParameter) (s : Step) : s.Own p.name (p.ofStep s) := by
  by_cases hBlock : p.block = .dataTable
  · cases hTable : s.dataTable with
    | none =>
      rw [ofStep_of_no_table hBlock hTable]
      refine .noTable ?_ hTable
      cases p with
      | docString => cases hBlock
      | rows | transposedRows | columns => decide
    | some t =>
      rw [ofStep_of_table hBlock hTable]
      cases p with
      | docString => cases hBlock
      | rows => exact .rows hTable
      | transposedRows => exact .transposedRows hTable
      | columns =>
        cases hColumns : t.columns with
        | ok found =>
          rw [ofTable_columns_of_ok hColumns]
          exact .columns hTable hColumns
        | error fault =>
          obtain ⟨hFew, -⟩ := DataTable.columns_eq_error_iff.mp hColumns
          rw [ofTable_columns_of_few hFew]
          exact .tooFewRows hTable hFew
  · cases p with
    | rows | transposedRows | columns => exact absurd rfl hBlock
    | docString =>
      unfold ofStep
      cases hDoc : s.docString with
      | none => exact .noDocString hDoc
      | some d => exact .docString hDoc

end ReservedParameter

/-- What a step has itself is what it provides for the reserved parameter of the name. -/
theorem Step.own_iff {s : Step} {name : String} {result : Except ExecutionError Value} :
    s.Own name result ↔ ∃ p, ReservedParameter.ofName? name = some p ∧ p.ofStep s = result := by
  constructor
  · intro h
    cases h with
    | rows table => exact ⟨.rows, rfl, ReservedParameter.ofStep_of_table rfl table⟩
    | transposedRows table =>
      exact ⟨.transposedRows, rfl, ReservedParameter.ofStep_of_table rfl table⟩
    | columns table columns =>
      refine ⟨.columns, rfl, ?_⟩
      rw [ReservedParameter.ofStep_of_table rfl table,
        ReservedParameter.ofTable_columns_of_ok columns]
    | tooFewRows table few =>
      refine ⟨.columns, rfl, ?_⟩
      rw [ReservedParameter.ofStep_of_table rfl table, ReservedParameter.ofTable_columns_of_few few]
    | docString block =>
      refine ⟨.docString, rfl, ?_⟩
      rw [ReservedParameter.ofStep, block]
      rfl
    | noTable shown block =>
      simp only [List.mem_cons, List.not_mem_nil, or_false] at shown
      rcases shown with rfl | rfl | rfl
      · exact ⟨.rows, rfl, ReservedParameter.ofStep_of_no_table rfl block⟩
      · exact ⟨.transposedRows, rfl, ReservedParameter.ofStep_of_no_table rfl block⟩
      · exact ⟨.columns, rfl, ReservedParameter.ofStep_of_no_table rfl block⟩
    | noDocString block =>
      refine ⟨.docString, rfl, ?_⟩
      rw [ReservedParameter.ofStep, block]
      rfl
  · rintro ⟨p, hName, rfl⟩
    rw [← ReservedParameter.name_of_ofName? hName]
    exact p.own_ofStep s

/-! ### What is supplied -/

variable {σ : Type}

/-- What a parameter that the pattern does not bind gets, or why it gets nothing. -/
inductive StepDefinition.Supplied (d : StepDefinition σ) (s : Step) (fixtures : FixtureResolver)
    (name : String) : Except ExecutionError Value → Prop
  | own {result : Except ExecutionError Value} (own : s.Own name result) :
      Supplied d s fixtures name result
  | fixture {v : Value} (free : name ∉ reservedNames) (found : fixtures name = some v) :
      Supplied d s fixtures name (.ok v)
  | noFixture (free : name ∉ reservedNames) (missing : fixtures name = none) :
      Supplied d s fixtures name (.error (.missingFixture name d.describe))

namespace StepDefinition

variable {d : StepDefinition σ} {s : Step} {fixtures fixtures' : FixtureResolver} {name : String}
  {a : StepArguments} {ps : List String}

theorem supply_eq_iff {result : Except ExecutionError Value} :
    d.supply s fixtures name = result ↔ d.Supplied s fixtures name result := by
  unfold supply
  cases hReserved : ReservedParameter.ofName? name with
  | some p =>
    have hTaken : ¬ name ∉ reservedNames := by
      rw [← ReservedParameter.ofName?_eq_none_iff, hReserved]
      exact fun h => by cases h
    constructor
    · exact fun h => .own (Step.own_iff.mpr ⟨p, hReserved, h⟩)
    · intro h
      cases h with
      | own own =>
        obtain ⟨q, hq, hResult⟩ := Step.own_iff.mp own
        rw [hReserved] at hq
        cases hq
        exact hResult
      | fixture free _ => exact absurd free hTaken
      | noFixture free _ => exact absurd free hTaken
  | none =>
    have hFree := ReservedParameter.ofName?_eq_none_iff.mp hReserved
    constructor
    · intro h
      cases hFound : fixtures name with
      | some v =>
        rw [hFound] at h
        subst h
        exact .fixture hFree hFound
      | none =>
        rw [hFound] at h
        subst h
        exact .noFixture hFree hFound
    · intro h
      cases h with
      | own own =>
        obtain ⟨q, hq, -⟩ := Step.own_iff.mp own
        rw [hReserved] at hq
        cases hq
      | fixture _ found => rw [found]
      | noFixture _ missing => rw [missing]

/-- Under a reserved name no fixture is asked for. -/
theorem supply_congr (h : name ∉ reservedNames → fixtures name = fixtures' name) :
    d.supply s fixtures name = d.supply s fixtures' name := by
  unfold supply
  cases hReserved : ReservedParameter.ofName? name with
  | some p => rfl
  | none => rw [h (ReservedParameter.ofName?_eq_none_iff.mp hReserved)]

/-! ### Filling in -/

/-- A parameter gets a value: it has one, or one is supplied. -/
def Available (d : StepDefinition σ) (s : Step) (fixtures : FixtureResolver) (a : StepArguments)
    (name : String) : Prop :=
  name ∈ a.names ∨ ∃ v, d.supply s fixtures name = .ok v

/-- Arguments in which the given parameters, and no others, have been filled in. -/
structure Filled (d : StepDefinition σ) (s : Step) (fixtures : FixtureResolver)
    (a : StepArguments) (ps : List String) (b : StepArguments) : Prop where
  ascending : Entries.Ascending a.entries → Entries.Ascending b.entries
  names : ∀ name, name ∈ b.names ↔ name ∈ a.names ∨ name ∈ ps
  kept : ∀ name ∈ a.names, b.value? name = a.value? name
  supplied : ∀ name ∈ ps, name ∉ a.names →
    ∃ v, d.supply s fixtures name = .ok v ∧ b.value? name = some v

theorem fill_of_mem (h : name ∈ a.names) : d.fill s fixtures a name = .ok a :=
  if_pos (Entries.mem_names_iff.mp h)

theorem fill_of_notMem (h : name ∉ a.names) :
    d.fill s fixtures a name = (d.supply s fixtures name).map fun v => a.insert name v :=
  if_neg fun hMem => h (Entries.mem_names_iff.mpr hMem)

theorem filled_nil (a : StepArguments) : d.Filled s fixtures a [] a where
  ascending := id
  names name := by simp
  kept name _ := rfl
  supplied name h := absurd h List.not_mem_nil

/-- One parameter is filled in. -/
theorem filled_of_fill {b : StepArguments} (h : d.fill s fixtures a name = .ok b) :
    d.Filled s fixtures a [name] b := by
  by_cases hMem : name ∈ a.names
  · rw [fill_of_mem hMem] at h
    obtain rfl := Except.ok.inj h
    refine ⟨id, fun n => ?_, fun n _ => rfl, fun n hn hNot => ?_⟩
    · rw [List.mem_singleton]
      exact ⟨.inl, fun hn => hn.elim id fun hEq => hEq ▸ hMem⟩
    · exact absurd (List.mem_singleton.mp hn ▸ hMem) hNot
  · rw [fill_of_notMem hMem] at h
    obtain ⟨v, hSupply, rfl⟩ := map_eq_ok_iff.mp h
    have hFound : ∀ n, (a.insert name v).value? n = if name = n then some v else a.value? n :=
      fun n => Entries.find?_enter n name v a.entries
    refine ⟨fun hAscending => Entries.ascending_enter hAscending name v, fun n => ?_,
      fun n hn => ?_, fun n hn _ => ?_⟩
    · show n ∈ Entries.names (a.insert name v).entries ↔ n ∈ Entries.names a.entries ∨ n ∈ [name]
      rw [Entries.mem_names_iff, Entries.mem_names_iff, List.mem_singleton]
      show ((a.insert name v).value? n).isSome = true ↔ (a.value? n).isSome = true ∨ n = name
      rw [hFound]
      split
      · next hEq => simp [hEq]
      · next hNe => simp [Ne.symm hNe]
    · rw [hFound, if_neg]
      rintro rfl
      exact hMem hn
    · rw [List.mem_singleton.mp hn, hFound, if_pos rfl]
      exact ⟨v, hSupply, rfl⟩

/-- Parameters are filled in one after another. -/
theorem Filled.append {b c : StepArguments} {qs : List String} (h : d.Filled s fixtures a ps b)
    (h' : d.Filled s fixtures b qs c) : d.Filled s fixtures a (ps ++ qs) c where
  ascending hAscending := h'.ascending (h.ascending hAscending)
  names name := by rw [h'.names, h.names, List.mem_append, or_assoc]
  kept name hName := by rw [h'.kept name ((h.names name).mpr (.inl hName)), h.kept name hName]
  supplied name hName hNew := by
    by_cases hEarly : name ∈ b.names
    · have hFirst : name ∈ ps := ((h.names name).mp hEarly).resolve_left hNew
      rw [h'.kept name hEarly]
      exact h.supplied name hFirst hNew
    · have hNot : name ∉ ps := fun hMem => hEarly ((h.names name).mpr (.inr hMem))
      exact h'.supplied name ((List.mem_append.mp hName).resolve_left hNot) hEarly

/-- **What is found after all parameters of a list have been gone through.** -/
theorem filled_of_foldlM {b : StepArguments} (h : ps.foldlM (d.fill s fixtures) a = .ok b) :
    d.Filled s fixtures a ps b := by
  induction ps generalizing a with
  | nil =>
    obtain rfl := Except.ok.inj h
    exact filled_nil a
  | cons p ps ih =>
    rw [List.foldlM_cons] at h
    obtain ⟨m, hFirst, hRest⟩ := bind_eq_ok_iff.mp h
    exact (filled_of_fill hFirst).append (ih hRest)

theorem Available.fill {b : StepArguments} {p : String} (h : d.Available s fixtures a name)
    (hFill : d.fill s fixtures a p = .ok b) : d.Available s fixtures b name :=
  h.imp_left fun hMem => ((filled_of_fill hFill).names name).mpr (.inl hMem)

theorem exists_fill (h : d.Available s fixtures a name) :
    ∃ b, d.fill s fixtures a name = .ok b := by
  by_cases hMem : name ∈ a.names
  · exact ⟨a, fill_of_mem hMem⟩
  · obtain ⟨v, hSupply⟩ := h.resolve_left hMem
    exact ⟨a.insert name v, by rw [fill_of_notMem hMem, hSupply]; rfl⟩

/-- When every parameter gets a value, all are filled in. -/
theorem exists_foldlM_fill (h : ∀ p ∈ ps, d.Available s fixtures a p) :
    ∃ b, ps.foldlM (d.fill s fixtures) a = .ok b := by
  induction ps generalizing a with
  | nil => exact ⟨a, rfl⟩
  | cons p ps ih =>
    obtain ⟨hFirst, hRest⟩ := List.forall_mem_cons.mp h
    obtain ⟨m, hFill⟩ := exists_fill hFirst
    rw [List.foldlM_cons, hFill, ok_bind]
    exact ih fun q hq => (hRest q hq).fill hFill

/-- **The first parameter that gets no value ends the matter**, whatever stands behind it. -/
theorem foldlM_fill_eq_error {front back : List String} {e : ExecutionError}
    (hFront : ∀ p ∈ front, d.Available s fixtures a p) (hNew : name ∉ a.names)
    (hNothing : d.supply s fixtures name = .error e) :
    (front ++ name :: back).foldlM (d.fill s fixtures) a = .error e := by
  obtain ⟨b, hb⟩ := exists_foldlM_fill hFront
  have hFilled := filled_of_foldlM hb
  have hStill : name ∉ b.names := by
    intro hMem
    have hEarly : name ∈ front := ((hFilled.names name).mp hMem).resolve_left hNew
    obtain ⟨v, hv⟩ := (hFront name hEarly).resolve_left hNew
    rw [hNothing] at hv
    cases hv
  rw [List.foldlM_append, hb, ok_bind, List.foldlM_cons, fill_of_notMem hStill, hNothing]
  rfl

/-- Either every parameter gets a value, or there is a first one that gets none. -/
theorem forall_available_or_exists (d : StepDefinition σ) (s : Step) (fixtures : FixtureResolver)
    (a : StepArguments) (ps : List String) :
    (∀ p ∈ ps, d.Available s fixtures a p) ∨
      ∃ front name back e, ps = front ++ name :: back ∧
        (∀ p ∈ front, d.Available s fixtures a p) ∧ name ∉ a.names ∧
          d.supply s fixtures name = .error e := by
  induction ps with
  | nil => exact .inl fun p hp => absurd hp List.not_mem_nil
  | cons p ps ih =>
    by_cases hp : d.Available s fixtures a p
    · rcases ih with hAll | ⟨front, name, back, e, rfl, hFront, hNew, hNothing⟩
      · exact .inl (List.forall_mem_cons.mpr ⟨hp, hAll⟩)
      · exact .inr ⟨p :: front, name, back, e, rfl, List.forall_mem_cons.mpr ⟨hp, hFront⟩, hNew,
          hNothing⟩
    · obtain ⟨hNew, hNone⟩ := not_or.mp hp
      cases hSupply : d.supply s fixtures p with
      | ok v => exact absurd ⟨v, hSupply⟩ hNone
      | error e =>
        exact .inr ⟨[], p, ps, e, rfl, fun q hq => absurd hq List.not_mem_nil, hNew, hSupply⟩

end StepDefinition

/-! ### All parameters -/

namespace ResolvedStep

variable {r : ResolvedStep σ} {s : Step} {fixtures fixtures' : FixtureResolver}

/-- The pattern binds a name. -/
def Binds (r : ResolvedStep σ) (name : String) : Prop := name ∈ r.arguments.map (·.1)

instance (r : ResolvedStep σ) : DecidablePred r.Binds := fun name =>
  inferInstanceAs (Decidable (name ∈ r.arguments.map (·.1)))

/-- The value that a name is bound to. A matcher may bind a name several times; the last one
counts. -/
def BoundTo (r : ResolvedStep σ) (name : String) (v : Value) : Prop :=
  ∃ front back, r.arguments = front ++ (name, v) :: back ∧ name ∉ back.map (·.1)

/-- How the assembly of arguments ends. -/
inductive Assembly (r : ResolvedStep σ) (s : Step) (fixtures : FixtureResolver) :
    Except ExecutionError StepArguments → Prop
  /-- A parameter is neither bound nor supplied, and all in front of it are. -/
  | failed {front back : List String} {name : String} {e : ExecutionError}
      (parameters : r.definition.parameters = front ++ name :: back)
      (before : ∀ p ∈ front, r.Binds p ∨ ∃ v, r.definition.Supplied s fixtures p (.ok v))
      (unbound : ¬ r.Binds name) (nothing : r.definition.Supplied s fixtures name (.error e)) :
      Assembly r s fixtures (.error e)
  | complete {a : StepArguments} (ascending : Entries.Ascending a.entries)
      (names : ∀ name, name ∈ a.names ↔ r.Binds name ∨ name ∈ r.definition.parameters)
      (bound : ∀ name v, r.BoundTo name v → a.value? name = some v)
      (supplied : ∀ name ∈ r.definition.parameters, ¬ r.Binds name →
        ∃ v, r.definition.Supplied s fixtures name (.ok v) ∧ a.value? name = some v) :
      Assembly r s fixtures (.ok a)

theorem mem_names_iff_binds {name : String} :
    name ∈ (StepArguments.ofList r.arguments).names ↔ r.Binds name :=
  Entries.mem_names_ofList_iff

theorem value?_eq_some_iff_boundTo {name : String} {v : Value} :
    (StepArguments.ofList r.arguments).value? name = some v ↔ r.BoundTo name v :=
  Entries.find?_ofList_eq_some_iff

theorem available_iff {name : String} :
    r.definition.Available s fixtures (.ofList r.arguments) name ↔
      r.Binds name ∨ ∃ v, r.definition.Supplied s fixtures name (.ok v) := by
  simp only [StepDefinition.Available, mem_names_iff_binds, StepDefinition.supply_eq_iff]

/-- Arguments that are complete in the sense of `Assembly` are what is filled in. -/
theorem eq_of_filled {a b : StepArguments}
    (h : r.definition.Filled s fixtures (.ofList r.arguments) r.definition.parameters b)
    (hComplete : Assembly r s fixtures (.ok a)) : b = a := by
  cases hComplete with
  | complete ascending names bound supplied =>
    have hEntries : b.entries = a.entries := by
      refine Entries.eq_of_find?_eq (h.ascending (Entries.ascending_ofList _)) ascending
        fun name => ?_
      show b.value? name = a.value? name
      by_cases hBinds : r.Binds name
      · have hMem := mem_names_iff_binds.mpr hBinds
        obtain ⟨v, hv⟩ := Option.isSome_iff_exists.mp (Entries.mem_names_iff.mp hMem)
        rw [h.kept name hMem, bound name v (value?_eq_some_iff_boundTo.mp hv)]
        exact hv
      · by_cases hParameter : name ∈ r.definition.parameters
        · obtain ⟨v, hSupply, hv⟩ :=
            h.supplied name hParameter fun hMem => hBinds (mem_names_iff_binds.mp hMem)
          obtain ⟨w, hSupplied, hw⟩ := supplied name hParameter hBinds
          rw [StepDefinition.supply_eq_iff.mpr hSupplied] at hSupply
          rw [hv, hw, Except.ok.inj hSupply]
        · -- neither bound nor a parameter: it is in none of the two
          have hNeither : ¬ (r.Binds name ∨ name ∈ r.definition.parameters) :=
            not_or.mpr ⟨hBinds, hParameter⟩
          have hb : name ∉ b.names := by rwa [h.names, mem_names_iff_binds]
          have ha : name ∉ a.names := by rwa [names]
          rw [StepArguments.names, Entries.mem_names_iff, Option.not_isSome_iff_eq_none] at ha hb
          exact hb.trans ha.symm
    cases a
    cases b
    exact congrArg _ hEntries

/-- The assembly of arguments ends as `Assembly` says. -/
theorem assembly_assemble (r : ResolvedStep σ) (s : Step) (fixtures : FixtureResolver) :
    r.Assembly s fixtures (r.assemble s fixtures) := by
  unfold assemble
  rcases r.definition.forall_available_or_exists s fixtures (.ofList r.arguments)
    r.definition.parameters with hAll | ⟨front, name, back, e, hParameters, hFront, hNew, hNothing⟩
  · obtain ⟨b, hb⟩ := StepDefinition.exists_foldlM_fill hAll
    have hFilled := StepDefinition.filled_of_foldlM hb
    rw [hb]
    refine .complete (hFilled.ascending (Entries.ascending_ofList _)) (fun name => ?_)
      (fun name v hv => ?_) (fun name hName hUnbound => ?_)
    · rw [hFilled.names, mem_names_iff_binds]
    · have hFound := value?_eq_some_iff_boundTo.mpr hv
      rw [hFilled.kept name (Entries.mem_names_iff.mpr (Option.isSome_of_eq_some hFound)), hFound]
    · obtain ⟨v, hSupply, hv⟩ :=
        hFilled.supplied name hName fun hMem => hUnbound (mem_names_iff_binds.mp hMem)
      exact ⟨v, StepDefinition.supply_eq_iff.mp hSupply, hv⟩
  · rw [hParameters, StepDefinition.foldlM_fill_eq_error hFront hNew hNothing]
    exact .failed hParameters (fun p hp => available_iff.mp (hFront p hp))
      (fun hBinds => hNew (mem_names_iff_binds.mpr hBinds))
      (StepDefinition.supply_eq_iff.mp hNothing)

/-- It ends in no other way. -/
theorem Assembly.assemble_eq {answer : Except ExecutionError StepArguments}
    (h : r.Assembly s fixtures answer) : r.assemble s fixtures = answer := by
  have hUnbound : ∀ {name}, ¬ r.Binds name → name ∉ (StepArguments.ofList r.arguments).names :=
    fun hNot hMem => hNot (mem_names_iff_binds.mp hMem)
  unfold assemble
  cases h with
  | failed parameters before unbound nothing =>
    rw [parameters]
    exact StepDefinition.foldlM_fill_eq_error (fun p hp => available_iff.mpr (before p hp))
      (hUnbound unbound) (StepDefinition.supply_eq_iff.mpr nothing)
  | complete ascending names bound supplied =>
    have hAll : ∀ p ∈ r.definition.parameters,
        r.definition.Available s fixtures (.ofList r.arguments) p := by
      intro p hp
      rw [available_iff]
      refine Classical.or_iff_not_imp_left.mpr fun hNot => ?_
      obtain ⟨v, hSupplied, -⟩ := supplied p hp hNot
      exact ⟨v, hSupplied⟩
    obtain ⟨b, hb⟩ := StepDefinition.exists_foldlM_fill hAll
    rw [hb, eq_of_filled (StepDefinition.filled_of_foldlM hb)
      (.complete ascending names bound supplied)]

/-- Fixtures of other names than those that are asked for do not matter. -/
theorem assemble_congr
    (h : ∀ name ∈ r.definition.parameters, ¬ r.Binds name → name ∉ reservedNames →
      fixtures name = fixtures' name) :
    r.assemble s fixtures = r.assemble s fixtures' := by
  have hSupplied : ∀ name ∈ r.definition.parameters, ¬ r.Binds name → ∀ result,
      r.definition.Supplied s fixtures' name result →
        r.definition.Supplied s fixtures name result := by
    intro name hName hUnbound result hResult
    rw [← StepDefinition.supply_eq_iff] at hResult ⊢
    rw [StepDefinition.supply_congr (h name hName hUnbound)]
    exact hResult
  refine Assembly.assemble_eq ?_
  have hAssembly := assembly_assemble r s fixtures'
  generalize r.assemble s fixtures' = answer at hAssembly ⊢
  cases hAssembly with
  | @failed front back name e parameters before unbound nothing =>
    refine .failed parameters (fun p hp => ?_) unbound
      (hSupplied name (by rw [parameters]; simp) unbound _ nothing)
    refine Classical.or_iff_not_imp_left.mpr fun hNot => ?_
    obtain ⟨v, hv⟩ := (before p hp).resolve_left hNot
    exact ⟨v, hSupplied p (by rw [parameters]; simp [hp]) hNot _ hv⟩
  | complete ascending names bound supplied =>
    refine .complete ascending names bound fun name hName hUnbound => ?_
    obtain ⟨v, hv, hFound⟩ := supplied name hName hUnbound
    exact ⟨v, hSupplied name hName hUnbound _ hv, hFound⟩

/-- **The values of the parameters come from the pattern, from the step itself and from fixtures, in
this order.**

* The assembly of arguments ends as `Assembly` says: with the error of the first parameter that is
  neither bound nor supplied, or with arguments under the bound names and the names of the
  parameters, the bound ones with the values that they are bound to and the others with what is
  supplied for them.
* Only fixtures for parameters that are neither bound nor reserved matter. -/
theorem assemble_by_source (r : ResolvedStep σ) (s : Step) (fixtures : FixtureResolver) :
    (∀ answer, r.assemble s fixtures = answer ↔ r.Assembly s fixtures answer) ∧
    ∀ fixtures' : FixtureResolver,
      (∀ name ∈ r.definition.parameters, ¬ r.Binds name → name ∉ reservedNames →
        fixtures name = fixtures' name) →
      r.assemble s fixtures = r.assemble s fixtures' :=
  ⟨fun _ => ⟨fun h => h ▸ assembly_assemble r s fixtures, Assembly.assemble_eq⟩,
    fun _ => assemble_congr⟩

/-- A step with a doc string, and a definition that binds one of its parameters. -/
def shadowingStep : Step :=
  ⟨"1", ⟨3, 5⟩, "Given", .context, "3 apples", none, some ⟨⟨4, 7⟩, "fresh", "```", none⟩⟩

def shadowingDefinition : StepDefinition Unit :=
  ⟨.given, .exact "3 apples", fun _ s => (.done, s), ["docstring", "count", "ledger"], [], .caller⟩

/-- Fixtures under a bound name and under a reserved one are not asked for. -/
theorem assemble_by_source_shadowed :
    let r : ResolvedStep Unit := ⟨shadowingDefinition, [("count", .text "3")]⟩
    let few : FixtureResolver := fun name => if name = "ledger" then some (.text "mine") else none
    let all : FixtureResolver := fun name =>
      if name = "ledger" then some (.text "mine") else some (.text "theirs")
    (∀ name ∈ r.definition.parameters, ¬ r.Binds name → name ∉ reservedNames →
      all name = few name) ∧
    r.assemble shadowingStep all = .ok
      ⟨[("count", .text "3"), ("docstring", .text "fresh"), ("ledger", .text "mine")]⟩ := by
  intro r few all
  have hSame : ∀ name ∈ r.definition.parameters, ¬ r.Binds name → name ∉ reservedNames →
      all name = few name := by decide
  refine ⟨hSame, ?_⟩
  rw [(assemble_by_source r shadowingStep all).2 few hSame]
  rfl

end ResolvedStep

end Scenarist
