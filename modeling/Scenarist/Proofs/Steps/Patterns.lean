import Scenarist.Proofs.Format.Names
import Scenarist.Proofs.Regex.Numbers

/-!
# What patterns bind

`Binds` says for each kind of pattern what it binds of a text.

* An exact text binds nothing.
* An expression binds the named groups that took part in its match, with the texts that the match
  has of them, in the order of the groups.  A group that took no part binds nothing, and one that
  read the empty text binds it.  No group is without a place among the names (`upTo_of_read`), so
  none is passed over.
* A text with fields binds one value for each field, in order; put back in their places the values
  give the text.

Then `binds_of_attempt` and `attempt_isSome_iff_binds` say that a pattern which is no custom one
binds this and nothing else, and `nodup_names_of_attempt` that it binds no name twice.
-/

namespace Scenarist

namespace StepPattern

open Regex Format

/-- The pattern is one of those that a text or a source makes. -/
inductive Built : StepPattern → Prop
  | exact (text : String) : Built (.exact text)
  | expression {source : String} {p : StepPattern} (accepted : ofExpression source = .ok p) :
      Built p
  | format {source : String} {p : StepPattern} (accepted : ofFormat source = .ok p) : Built p

theorem ofFormat_eq_ok_iff {source : String} {p : StepPattern} :
    ofFormat source = .ok p ↔ ∃ f, FormatPattern.compile source = .ok f ∧ p = .format f := by
  unfold ofFormat
  rw [mapError_eq_ok_iff]
  constructor
  · intro h
    obtain ⟨f, hCompile, rfl⟩ := map_eq_ok_iff.mp h
    exact ⟨f, hCompile, rfl⟩
  · rintro ⟨f, hCompile, rfl⟩
    rw [hCompile]
    rfl

/-! ### Named groups -/

/-- The bindings of groups with the places of these groups: those that have a name and a text, in
order. -/
structure Picks (names : List (Option String)) (groups : List (Option (List Char)))
    (places : List Nat) (bindings : List Binding) : Prop where
  ascending : places.Pairwise (· < ·)
  mem_iff : ∀ i, i ∈ places ↔
    (∃ name, names[i]? = some (some name)) ∧ ∃ u, groups[i]? = some (some u)
  bound : List.Forall₂ (fun i b => ∃ name u, names[i]? = some (some name) ∧
    groups[i]? = some (some u) ∧ b = .text name (String.ofList u)) places bindings

namespace Picks

variable {names : List (Option String)} {groups : List (Option (List Char))} {places : List Nat}
  {bindings : List Binding}

theorem forall_lt_map_succ (places : List Nat) : ∀ i ∈ places.map (· + 1), 0 < i := by
  intro i hi
  obtain ⟨j, -, rfl⟩ := List.mem_map.mp hi
  exact Nat.succ_pos j

theorem ascending_map_succ (h : Picks names groups places bindings) :
    (places.map (· + 1)).Pairwise (· < ·) :=
  List.pairwise_map.mpr (h.ascending.imp Nat.succ_lt_succ)

/-- A group without a name or without a text binds nothing. -/
theorem skip (h : Picks names groups places bindings) {name : Option String}
    {group : Option (List Char)} (hNone : name = none ∨ group = none) :
    Picks (name :: names) (group :: groups) (places.map (· + 1)) bindings where
  ascending := h.ascending_map_succ
  mem_iff i := by
    cases i with
    | zero =>
      refine iff_of_false (fun hi => Nat.lt_irrefl 0 (forall_lt_map_succ places 0 hi)) ?_
      rintro ⟨⟨n, hName⟩, u, hGroup⟩
      rcases hNone with rfl | rfl
      · cases hName
      · cases hGroup
    | succ i =>
      rw [List.mem_map_of_injective (add_left_injective 1)]
      exact h.mem_iff i
  bound := List.forall₂_map_left_iff.mpr h.bound

/-- A group with a name and a text binds its text. -/
theorem take (h : Picks names groups places bindings) (name : String) (u : List Char) :
    Picks (some name :: names) (some u :: groups) (0 :: places.map (· + 1))
      (.text name (String.ofList u) :: bindings) where
  ascending := h.ascending_map_succ.cons (forall_lt_map_succ places)
  mem_iff i := by
    cases i with
    | zero => exact iff_of_true List.mem_cons_self ⟨⟨name, rfl⟩, u, rfl⟩
    | succ i =>
      rw [List.mem_cons, or_iff_right (Nat.succ_ne_zero i),
        List.mem_map_of_injective (add_left_injective 1)]
      exact h.mem_iff i
  bound := .cons ⟨name, u, rfl, rfl, rfl⟩ (List.forall₂_map_left_iff.mpr h.bound)

end Picks

/-- **The named groups bind their texts, in order, and nothing else is bound.** -/
theorem exists_picks (names : List (Option String)) (groups : List (Option (List Char))) :
    ∃ places, Picks names groups places (namedGroups names groups) := by
  have hNil : ∀ names groups, (names = [] ∨ groups = []) → Picks names groups [] [] := by
    rintro names groups (rfl | rfl)
    · exact ⟨.nil, by simp, .nil⟩
    · exact ⟨.nil, by simp, .nil⟩
  induction names generalizing groups with
  | nil => exact ⟨[], hNil [] groups (.inl rfl)⟩
  | cons name names ih =>
    cases groups with
    | nil => exact ⟨[], hNil _ [] (.inr rfl)⟩
    | cons group groups =>
      obtain ⟨places, hPicks⟩ := ih groups
      cases name with
      | none => exact ⟨_, hPicks.skip (.inl rfl)⟩
      | some name =>
        cases group with
        | none => exact ⟨_, hPicks.skip (.inr rfl)⟩
        | some u => exact ⟨_, hPicks.take name u⟩

/-- Groups that took no part bind nothing; the others bind under their names, in order. -/
theorem names_namedGroups_sublist (names : List (Option String))
    (groups : List (Option (List Char))) :
    ((namedGroups names groups).map (·.name)).Sublist names.reduceOption := by
  induction names generalizing groups with
  | nil => exact List.Sublist.refl _
  | cons name names ih =>
    cases groups with
    | nil => exact List.nil_sublist _
    | cons group groups =>
      cases name with
      | none => exact ih groups
      | some name =>
        cases group with
        | none => exact (ih groups).cons name
        | some value => exact (ih groups).cons_cons name

/-! ### Bindings of a text -/

/-- What a pattern that is no custom one binds of a text that it matches. -/
inductive Binds : StepPattern → String → List Binding → Prop
  | exact (text : String) : Binds (.exact text) text []
  /-- The match that counts is `h`, which begins behind `front`.  Every group that took part in it
  has a place among the names, which is one below its number; the places of those with names are
  bound. -/
  | expression {source text : String} {e : Expression} {front : List Char} {h : Hit}
      {places : List Nat} {bindings : List Binding}
      (preferred : Preferred e.body (.ofText text.toList) front h)
      (placed : ∀ g ∈ h.groups, ∃ i < e.names.length, g.1 = i + 1)
      (ascending : places.Pairwise (· < ·))
      (taken : ∀ i, i ∈ places ↔
        (∃ name, e.names[i]? = some (some name)) ∧ ∃ g ∈ h.groups, g.1 = i + 1)
      (bound : List.Forall₂ (fun i b => e.names[i]? = some (some b.name) ∧
        Took e.body text.toList h (i + 1) b.raw.toList ∧ b.converter = none) places bindings) :
      Binds (.expression source e) text bindings
  /-- A field has its name, the converter of its hint and a text of its kind. -/
  | format {p : FormatPattern} {text : String} {bindings : List Binding}
      (fields : List.Forall₂ (fun f b => b.name = f.name ∧
        b.converter = f.hint.bind Converter.ofHint?) p.fields bindings)
      (suits : Suits p.parts (bindings.map (·.raw.toList)))
      (filled : fill p.parts (bindings.map (·.raw.toList)) = text.toList) :
      Binds (.format p) text bindings

theorem binds_expression {source text : String} {e : Expression} {s : List Char}
    (hRead : Expression.read s = .ok e) {groups : List (Option (List Char))}
    (h : e.captures text.toList = some groups) :
    (expression source e).Binds text (namedGroups e.names groups) := by
  obtain ⟨hit, hFound, rfl⟩ := Option.map_eq_some_iff.mp h
  obtain ⟨front, hPreferred⟩ := search_eq_some_iff.mp hFound
  obtain ⟨places, hPicks⟩ := exists_picks e.names
    ((List.range e.names.length).map fun i => hit.group? text.toList (i + 1))
  have hGroup : ∀ {i u name}, e.names[i]? = some name →
      (((List.range e.names.length).map fun i => hit.group? text.toList (i + 1))[i]? =
        some (some u) ↔ hit.group? text.toList (i + 1) = some u) := by
    intro i u name hName
    obtain ⟨hi, -⟩ := List.getElem?_eq_some_iff.mp hName
    rw [List.getElem?_map, List.getElem?_range hi, Option.map_some, Option.some.injEq]
  refine .expression hPreferred (fun g hg => ?_) hPicks.ascending (fun i => ?_) ?_
  · obtain ⟨a, _, _, hMem, -⟩ :=
      (hPreferred.leads.mark_of_mem_groups (.refl _) hg).resolve_left List.not_mem_nil
    obtain ⟨hPositive, hLe⟩ := upTo_of_read hRead _ hMem
    exact ⟨g.1 - 1, by omega, by omega⟩
  · rw [hPicks.mem_iff, ← group?_isSome_iff text.toList, Option.isSome_iff_exists]
    exact and_congr_right fun ⟨name, hName⟩ => exists_congr fun u => hGroup hName
  · refine hPicks.bound.imp ?_
    rintro i _ ⟨name, u, hName, hText, rfl⟩
    refine ⟨hName, ?_, rfl⟩
    show Took e.body text.toList hit (i + 1) (String.ofList u).toList
    rw [String.toList_ofList]
    exact (group?_eq_some_iff hPreferred.inside hPreferred.leads).mp ((hGroup hName).mp hText)

theorem binds_format {source text : String} {p : FormatPattern} {captured : List CapturedField}
    (hCompile : FormatPattern.compile source = .ok p) (h : p.captures text.toList = some captured) :
    (format p).Binds text (captured.map Binding.ofField) := by
  obtain ⟨hFields, hSuits, hFill⟩ := (captures_of_compile hCompile text.toList).2 captured h
  have hRaw : (captured.map Binding.ofField).map (·.raw.toList) =
      captured.map fun f => f.value.toList := List.map_map
  rw [← List.forall₂_eq_eq_eq, List.forall₂_map_left_iff, List.forall₂_map_right_iff] at hFields
  refine .format (List.forall₂_map_right_iff.mpr (hFields.flip.imp ?_)) (hRaw ▸ hSuits)
    (hRaw ▸ hFill)
  intro f c hSame
  obtain ⟨hName, hHint⟩ := Prod.mk.inj hSame
  exact ⟨hName, congrArg (·.bind Converter.ofHint?) hHint⟩

variable {p : StepPattern} {text : String} {bindings : List Binding}

/-- **What a pattern binds that is no custom one.** -/
theorem binds_of_attempt (hBuilt : p.Built) (h : p.attempt text = some bindings) :
    p.Binds text bindings := by
  cases hBuilt with
  | exact expected =>
    simp only [attempt] at h
    split at h
    · next hText =>
      obtain rfl := Option.some.inj h
      exact hText ▸ .exact expected
    · cases h
  | expression accepted =>
    obtain ⟨e, hRead, rfl⟩ := ofExpression_eq_ok_iff.mp accepted
    obtain ⟨groups, hCaptures, rfl⟩ := Option.map_eq_some_iff.mp h
    exact binds_expression hRead hCaptures
  | format accepted =>
    obtain ⟨f, hCompile, rfl⟩ := ofFormat_eq_ok_iff.mp accepted
    obtain ⟨captured, hCaptured, rfl⟩ := Option.map_eq_some_iff.mp h
    exact binds_format hCompile hCaptured

/-- It matches the texts of which it can bind something in this way. -/
theorem attempt_isSome_iff_binds (hBuilt : p.Built) :
    (p.attempt text).isSome = true ↔ ∃ bindings, p.Binds text bindings := by
  constructor
  · intro hSome
    obtain ⟨bindings, hBound⟩ := Option.isSome_iff_exists.mp hSome
    exact ⟨bindings, binds_of_attempt hBuilt hBound⟩
  · rintro ⟨_, hBinds⟩
    cases hBinds with
    | exact => exact Option.isSome_iff_exists.mpr ⟨[], if_pos rfl⟩
    | @expression _ _ e front h _ _ preferred =>
      have hFound : e.body.search 0 none text.toList = some h :=
        search_eq_some_iff.mpr ⟨front, preferred⟩
      show ((e.captures text.toList).map _).isSome = true
      rw [Option.isSome_map, Expression.captures, Regex.captures, hFound, Option.map_some]
      rfl
    | @format f _ _ fields suits filled =>
      have hCompiled : ∃ source, FormatPattern.compile source = .ok f := by
        cases hBuilt with
        | expression accepted =>
          obtain ⟨_, -, hOther⟩ := ofExpression_eq_ok_iff.mp accepted
          cases hOther
        | format accepted =>
          obtain ⟨g, hCompile, hSame⟩ := ofFormat_eq_ok_iff.mp accepted
          obtain rfl := StepPattern.format.inj hSame
          exact ⟨_, hCompile⟩
      obtain ⟨source, hCompile⟩ := hCompiled
      show ((f.captures text.toList).map _).isSome = true
      rw [Option.isSome_map, (captures_of_compile hCompile text.toList).1]
      exact ⟨_, suits, filled⟩

/-- **A pattern that is no custom one binds no name twice.** -/
theorem nodup_names_of_attempt (hBuilt : p.Built) (h : p.attempt text = some bindings) :
    (bindings.map (·.name)).Nodup := by
  cases hBuilt with
  | exact expected =>
    cases binds_of_attempt (.exact expected) h
    exact List.nodup_nil
  | expression accepted =>
    obtain ⟨e, hRead, rfl⟩ := ofExpression_eq_ok_iff.mp accepted
    obtain ⟨groups, -, rfl⟩ := Option.map_eq_some_iff.mp h
    exact (Regex.nodup_names_of_read hRead).sublist (names_namedGroups_sublist e.names groups)
  | format accepted =>
    obtain ⟨f, hCompile, rfl⟩ := ofFormat_eq_ok_iff.mp accepted
    cases binds_of_attempt (.format accepted) h with
    | format fields =>
      have hNames : f.fields.map (·.name) = bindings.map (·.name) := by
        rw [← List.forall₂_eq_eq_eq, List.forall₂_map_left_iff, List.forall₂_map_right_iff]
        exact fields.imp fun _ _ hField => hField.1.symm
      exact hNames ▸ nodup_names_of_compile hCompile

end StepPattern

end Scenarist
