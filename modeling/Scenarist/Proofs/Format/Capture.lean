import Scenarist.Proofs.Format.Reading
import Scenarist.Proofs.Refusal
import Scenarist.Proofs.Regex.Groups

/-!
# What patterns capture

A pattern cuts a text into one piece for each of its parts: its literal text as it is, and for each
field a text of the kind of the field.

* `leads_items_iff`: the expression of the parts takes a hit behind such pieces, and remembers the
  pieces of the fields under the numbers of the fields.
* `group?_marks`: what is remembered under a number is the piece of that field.
* `captures_cut`: a compiled pattern captures from exactly the texts that can be cut, one value for
  each field, and the values written back in their places give the text.
-/

namespace Scenarist

namespace Format

open Regex

/-! ### Cutting a text -/

/-- The piece belongs to the part. -/
def Part.Admits : Part → List Char → Prop
  | .text s, u => u = s
  | .field f, u => u ∈ (Hint.kind f.hint).language

/-- The text is made of one piece for each part, in order. -/
def Cut (ps : List Part) (text : List Char) : Prop :=
  ∃ pieces, List.Forall₂ Part.Admits ps pieces ∧ pieces.flatten = text

/-- The texts of parts with values in the places of the fields. -/
def fill : List Part → List (List Char) → List Char
  | [], _ => []
  | .text s :: ps, values => s ++ fill ps values
  | .field _ :: ps, values => values.headD [] ++ fill ps values.tail

/-- One value for each field, of its kind. -/
def Suits (ps : List Part) (values : List (List Char)) : Prop :=
  List.Forall₂ (fun f v => v ∈ (Hint.kind f.hint).language) (fields ps) values

/-- What is remembered behind the parts when the fields, numbered from `k`, take the values from the
index `i` on; the latest first. -/
def marks : Nat → Nat → List Part → List (List Char) → List (Nat × Nat × Nat)
  | _, _, [], _ => []
  | k, i, .text s :: ps, values => marks k (i + s.length) ps values
  | k, i, .field _ :: ps, values =>
    marks (k + 1) (i + (values.headD []).length) ps values.tail ++
      [(k, i, i + (values.headD []).length)]

theorem le_of_mem_marks {k i : Nat} {ps : List Part} {values : List (List Char)}
    {g : Nat × Nat × Nat} (hg : g ∈ marks k i ps values) : k ≤ g.1 := by
  induction ps generalizing k i values with
  | nil => exact absurd hg List.not_mem_nil
  | cons part ps ih =>
    cases part with
    | text s => exact ih hg
    | field f =>
      rcases List.mem_append.mp hg with hg | hg
      · exact Nat.le_of_succ_le (ih hg)
      · rw [List.mem_singleton.mp hg]

/-- **What is remembered under a number is the value of that field.** -/
theorem group?_marks {ps : List Part} {values : List (List Char)} (hValues : Suits ps values)
    (p : Spot) (front back : List Char) (k j : Nat) :
    Hit.group? ⟨p, marks k front.length ps values⟩ (front ++ (fill ps values ++ back)) (k + j) =
      values[j]? := by
  induction ps generalizing k j front values with
  | nil =>
    cases hValues
    rfl
  | cons part ps ih =>
    cases part with
    | text s =>
      have hSame := ih hValues (front ++ s) k j
      rw [List.length_append, List.append_assoc, ← List.append_assoc s] at hSame
      exact hSame
    | field f =>
      obtain _ | ⟨hValue, hRest⟩ := hValues
      next v values =>
      have hMine := take_drop_between front v (fill ps values ++ back)
      have hLater := fun j => ih hRest (front ++ v) (k + 1) j
      simp only [List.length_append, List.append_assoc] at hLater
      simp only [Hit.group?] at hLater ⊢
      rw [marks, List.find?_append, Option.map_or, List.headD_cons, List.tail_cons, fill,
        List.headD_cons, List.tail_cons, List.append_assoc]
      cases j with
      | zero =>
        have hNone : (marks (k + 1) (front.length + v.length) ps values).find?
            (fun g => g.1 = k + 0) = none := by
          refine List.find?_eq_none.mpr fun g hg => ?_
          have := le_of_mem_marks hg
          simp only [decide_eq_true_eq]
          omega
        rw [hNone, Option.map_none, Option.none_or, List.find?_cons_of_pos (by simp)]
        exact congrArg some hMine
      | succ j =>
        have hNumber : k + (j + 1) = k + 1 + j := by omega
        have hOther : (List.find? (fun g : Nat × Nat × Nat => g.1 = k + 1 + j)
            [(k, front.length, front.length + v.length)]) = none := by
          refine List.find?_eq_none.mpr fun g hg => ?_
          rw [List.mem_singleton.mp hg]
          simp only [decide_eq_true_eq]
          omega
        rw [hNumber, hLater, hOther, Option.map_none, Option.or_none, List.getElem?_cons_succ]

/-! ### The expression of the parts -/

theorem leads_sequence_cons {r : Regex} {rs : List Regex} {h e : Hit} :
    Leads (Regex.sequence (r :: rs)) h e ↔ ∃ m, Leads r h m ∧ Leads (Regex.sequence rs) m e := by
  cases rs with
  | nil =>
    constructor
    · exact fun hLeads => ⟨e, hLeads, rfl⟩
    · rintro ⟨m, hLeads, hSame⟩
      rw [show e = m from hSame]
      exact hLeads
  | cons s rs => exact Iff.rfl

theorem leads_text_iff {s : List Char} {rs : List Regex} {h e : Hit} :
    Leads (Regex.sequence (s.map single ++ rs)) h e ↔
      s <+: h.spot.rest ∧ Leads (Regex.sequence rs) ⟨h.spot.past s, h.groups⟩ e := by
  induction s generalizing h with
  | nil => exact ⟨fun hLeads => ⟨List.nil_prefix, hLeads⟩, fun hBoth => hBoth.2⟩
  | cons c s ih =>
    have hCons : (c :: s).map single ++ rs = single c :: (s.map single ++ rs) := rfl
    have hSplit : h.spot.past (c :: s) = (h.spot.past [c]).past s := by
      rw [Spot.past_past, List.singleton_append]
    rw [hCons, leads_sequence_cons, hSplit]
    constructor
    · rintro ⟨m, hChar, hLeads⟩
      obtain ⟨u, hu, hPrefix, rfl⟩ := (leads_iff_of_plain rfl).mp hChar
      rw [mem_language_single] at hu
      subst hu
      obtain ⟨hMore, hEnd⟩ := ih.mp hLeads
      exact ⟨Spot.append_prefix hPrefix hMore, hEnd⟩
    · rintro ⟨⟨tail, hTail⟩, hEnd⟩
      have hPrefix : [c] <+: h.spot.rest := ⟨s ++ tail, hTail⟩
      have hMore : s <+: (h.spot.past [c]).rest := by
        show s <+: h.spot.rest.drop 1
        rw [← hTail]
        exact ⟨tail, rfl⟩
      exact ⟨⟨h.spot.past [c], h.groups⟩,
        (leads_iff_of_plain rfl).mpr ⟨[c], mem_language_single.mpr rfl, hPrefix, rfl⟩,
        ih.mpr ⟨hMore, hEnd⟩⟩

/-- A group takes a hit behind a text of its kind, and remembers where it stands. -/
theorem leads_group_iff {k : FieldKind} {i : Nat} {h e : Hit} :
    Leads (.group i k.regex) h e ↔ ∃ u ∈ k.language, u <+: h.spot.rest ∧
      e = ⟨h.spot.past u, (i, h.spot.index, h.spot.index + u.length) :: h.groups⟩ := by
  rw [← FieldKind.language_regex]
  constructor
  · rintro ⟨m, hm, rfl⟩
    obtain ⟨u, hu, hPrefix, rfl⟩ := (leads_iff_of_plain k.plain_regex).mp hm
    exact ⟨u, hu, hPrefix, rfl⟩
  · rintro ⟨u, hu, hPrefix, rfl⟩
    exact ⟨_, (leads_iff_of_plain k.plain_regex).mpr ⟨u, hu, hPrefix, rfl⟩, rfl⟩

/-- **The expression of the parts takes a hit behind suitable values in their places.** -/
theorem leads_items_iff {ps : List Part} {rs : List Regex} {k : Nat} {h e : Hit} :
    Leads (Regex.sequence (items k ps ++ rs)) h e ↔ ∃ values, Suits ps values ∧
      fill ps values <+: h.spot.rest ∧
      Leads (Regex.sequence rs)
        ⟨h.spot.past (fill ps values), marks k h.spot.index ps values ++ h.groups⟩ e := by
  induction ps generalizing k h with
  | nil =>
    constructor
    · exact fun hLeads => ⟨[], .nil, List.nil_prefix, hLeads⟩
    · rintro ⟨values, _, _, hLeads⟩
      exact hLeads
  | cons part ps ih =>
    cases part with
    | text s =>
      rw [items, List.append_assoc, leads_text_iff, ih]
      constructor
      · rintro ⟨hPrefix, values, hValues, hMore, hLeads⟩
        refine ⟨values, hValues, Spot.append_prefix hPrefix hMore, ?_⟩
        rwa [fill, ← Spot.past_past]
      · rintro ⟨values, hValues, hAll, hLeads⟩
        obtain ⟨hPrefix, hMore⟩ := Spot.prefix_of_append_prefix hAll
        refine ⟨hPrefix, values, hValues, hMore, ?_⟩
        rwa [fill, ← Spot.past_past] at hLeads
    | field f =>
      rw [items, List.cons_append, leads_sequence_cons]
      constructor
      · rintro ⟨m, hGroup, hLeads⟩
        obtain ⟨u, hu, hPrefix, rfl⟩ := leads_group_iff.mp hGroup
        obtain ⟨values, hValues, hMore, hEnd⟩ := ih.mp hLeads
        refine ⟨u :: values, .cons hu hValues, Spot.append_prefix hPrefix hMore, ?_⟩
        rw [fill, marks, List.headD_cons, List.tail_cons, List.append_assoc, ← Spot.past_past]
        exact hEnd
      · rintro ⟨_, _ | ⟨hu, hValues⟩, hAll, hLeads⟩
        obtain ⟨hPrefix, hMore⟩ := Spot.prefix_of_append_prefix hAll
        rw [fill, marks, List.headD_cons, List.tail_cons, List.append_assoc, ← Spot.past_past]
          at hLeads
        exact ⟨_, leads_group_iff.mpr ⟨_, hu, hPrefix, rfl⟩, ih.mpr ⟨_, hValues, hMore, hLeads⟩⟩

/-- The whole expression takes the start of a text to its end, behind suitable values in their
places. -/
theorem leads_body_iff {ps : List Part} {text : List Char} {e : Hit} :
    Leads (body ps) ⟨.ofText text, []⟩ e ↔ ∃ values, Suits ps values ∧ fill ps values = text ∧
      e = ⟨(Spot.ofText text).past text, marks 1 0 ps values⟩ := by
  rw [body, leads_sequence_cons]
  constructor
  · rintro ⟨m, ⟨_, rfl⟩, hLeads⟩
    obtain ⟨values, hValues, hPrefix, hEnd, rfl⟩ := leads_items_iff.mp hLeads
    have hDone : text.drop (fill ps values).length = [] := List.isEmpty_iff.mp hEnd
    have hText : fill ps values = text :=
      hPrefix.eq_of_length_le (List.drop_eq_nil_iff.mp hDone)
    refine ⟨values, hValues, hText, ?_⟩
    rw [hText, List.append_nil]
    rfl
  · rintro ⟨values, hValues, hText, rfl⟩
    refine ⟨⟨.ofText text, []⟩, ⟨rfl, rfl⟩, leads_items_iff.mpr ⟨values, hValues, ?_, ?_, ?_⟩⟩
    · rw [hText]
      exact List.prefix_refl text
    · show (text.drop (fill ps values).length).isEmpty = true
      rw [hText, List.drop_length]
      rfl
    · rw [hText, List.append_nil]
      rfl

/-- The expression begins at the start of the text. -/
theorem body_start (ps : List Part) (h e : Hit) (hLeads : Leads (body ps) h e) :
    h.spot.before = none := by
  obtain ⟨_, ⟨hStart, _⟩, _⟩ := leads_sequence_cons.mp hLeads
  exact Option.isNone_iff_eq_none.mp hStart

/-- **What the expression of the parts captures are suitable values whose places they fill, and it
captures something when there are such values.** -/
theorem captures_body (ps : List Part) (text : List Char) :
    (((body ps).captures (fields ps).length text).isSome = true ↔
      ∃ values, Suits ps values ∧ fill ps values = text) ∧
    ∀ found, (body ps).captures (fields ps).length text = some found →
      ∃ values, Suits ps values ∧ fill ps values = text ∧ found = values.map some := by
  refine ⟨?_, fun found hFound => ?_⟩
  · rw [captures_isSome_iff (body_start ps)]
    constructor
    · rintro ⟨e, hLeads⟩
      obtain ⟨values, hValues, hText, _⟩ := leads_body_iff.mp hLeads
      exact ⟨values, hValues, hText⟩
    · rintro ⟨values, hValues, hText⟩
      exact ⟨_, leads_body_iff.mpr ⟨values, hValues, hText, rfl⟩⟩
  · rw [captures, search_eq_head? (body_start ps)] at hFound
    obtain ⟨h, hHead, rfl⟩ := Option.map_eq_some_iff.mp hFound
    obtain ⟨values, hValues, hText, rfl⟩ :=
      leads_body_iff.mp (leads_of_mem_run (List.mem_of_mem_head? hHead))
    have hLength : (fields ps).length = values.length := hValues.length_eq
    refine ⟨values, hValues, hText, List.ext_getElem ?_ fun j hj hj' => ?_⟩
    · rw [List.length_map, List.length_map, List.length_range, hLength]
    · have hGroup := group?_marks hValues ((Spot.ofText text).past text) [] [] 1 j
      rw [List.append_nil, List.nil_append, hText, Nat.add_comm] at hGroup
      rw [List.getElem_map, List.getElem_map, List.getElem_range]
      rw [List.length_map] at hj'
      exact hGroup.trans (List.getElem?_eq_getElem hj')

/-! ### From tokens to parts -/

/-- The parts that tokens declare, with the fields without a name numbered from `n`.  A brace that
stands alone is text. -/
def declared : Nat → List TokenKind → List Part
  | _, [] => []
  | n, .literal text :: kinds => .text text :: declared n kinds
  | n, .openBrace :: kinds => .text ['\x7b'] :: declared n kinds
  | n, .closeBrace :: kinds => .text ['\x7d'] :: declared n kinds
  | n, .field (some name) hint :: kinds => .field ⟨name, hint, false⟩ :: declared n kinds
  | n, .field none hint :: kinds => .field ⟨toString n, hint, true⟩ :: declared (n + 1) kinds

/-- A token that is accepted adds the part that it declares. -/
theorem exists_part_of_add {a b : Assembly} {t : Token} (h : a.add t = .ok b) :
    ∃ part, b.parts = part :: a.parts ∧
      ∀ kinds, declared a.positional (t.kind :: kinds) = part :: declared b.positional kinds := by
  obtain ⟨start, stop, kind⟩ := t
  cases kind with
  | literal text =>
    cases h
    exact ⟨_, rfl, fun _ => rfl⟩
  | openBrace =>
    cases h
    exact ⟨_, rfl, fun _ => rfl⟩
  | closeBrace =>
    obtain ⟨ps, n, depth⟩ := a
    cases depth with
    | zero => cases h
    | succ depth =>
      cases h
      exact ⟨_, rfl, fun _ => rfl⟩
  | field name hint =>
    cases name with
    | none =>
      cases h
      exact ⟨_, rfl, fun _ => rfl⟩
    | some name =>
      simp only [Assembly.add] at h
      split at h
      · cases h
      · cases h
        exact ⟨_, rfl, fun _ => rfl⟩

theorem parts_of_foldlM {ts : List Token} {a b : Assembly} (h : ts.foldlM Assembly.add a = .ok b) :
    b.parts.reverse = a.parts.reverse ++ declared a.positional (ts.map Token.kind) := by
  induction ts generalizing a with
  | nil =>
    rw [← Except.ok.inj h]
    exact (List.append_nil _).symm
  | cons t ts ih =>
    rw [List.foldlM_cons] at h
    obtain ⟨m, hAdd, hRest⟩ := bind_eq_ok_iff.mp h
    obtain ⟨part, hPart, hDeclared⟩ := exists_part_of_add hAdd
    rw [ih hRest, hPart, List.reverse_cons, List.append_assoc, List.singleton_append, List.map_cons,
      hDeclared]

end Format

/-! ### Compiled patterns -/

open Format

/-- A compiled pattern has the parts of its tokens, and the expression of its parts. -/
theorem compile_eq_ok {source : String} {p : FormatPattern}
    (h : FormatPattern.compile source = .ok p) :
    parts source.toList = .ok p.parts ∧
      p.expression = ⟨body p.parts, List.replicate p.fields.length none⟩ := by
  obtain ⟨ps, hParts, h⟩ := bind_eq_ok_iff.mp h
  obtain ⟨e, hRead, h⟩ := bind_eq_ok_iff.mp h
  rw [← Except.ok.inj h]
  exact ⟨hParts, eq_of_read_source (mapError_eq_ok_iff.mp hRead)⟩

/-- Fields with values keep their names and hints, and the values are kept as they are. -/
theorem map_zip_fields {fs : List PatternField} {values : List (List Char)}
    {R : PatternField → List Char → Prop} (h : List.Forall₂ R fs values)
    {captured : List CapturedField}
    (hCaptured : captured = (fs.zip (values.map some)).map fun x =>
      ⟨x.1.name, x.1.hint, String.ofList (x.2.getD [])⟩) :
    captured.map (fun f => (f.name, f.hint)) = fs.map (fun f => (f.name, f.hint)) ∧
      captured.map (fun f => f.value.toList) = values := by
  subst hCaptured
  induction h with
  | nil => exact ⟨rfl, rfl⟩
  | cons _ _ ih =>
    simp only [List.map_cons, List.zip_cons_cons, ih, Option.getD_some, String.toList_ofList,
      and_self]

/-- What a compiled pattern captures are values for its fields that give the text, and it captures
something when there are such values. -/
theorem captures_of_compile {source : String} {p : FormatPattern}
    (hCompile : FormatPattern.compile source = .ok p) (text : List Char) :
    ((p.captures text).isSome = true ↔
      ∃ values, Suits p.parts values ∧ fill p.parts values = text) ∧
    ∀ captured, p.captures text = some captured →
      captured.map (fun f => (f.name, f.hint)) = p.fields.map (fun f => (f.name, f.hint)) ∧
      Suits p.parts (captured.map fun f => f.value.toList) ∧
      fill p.parts (captured.map fun f => f.value.toList) = text := by
  obtain ⟨-, hExpression⟩ := compile_eq_ok hCompile
  have hCaptures : p.expression.captures text =
      (body p.parts).captures (fields p.parts).length text := by
    rw [hExpression, Expression.captures, List.length_replicate]
    rfl
  obtain ⟨hSome, hFound⟩ := captures_body p.parts text
  refine ⟨?_, fun captured hCaptured => ?_⟩
  · rw [FormatPattern.captures, Option.isSome_map, hCaptures, hSome]
  · rw [FormatPattern.captures, hCaptures] at hCaptured
    obtain ⟨found, hCapture, hZip⟩ := Option.map_eq_some_iff.mp hCaptured
    obtain ⟨values, hValues, hText, rfl⟩ := hFound found hCapture
    obtain ⟨hNames, hBack⟩ := map_zip_fields hValues hZip.symm
    rw [hBack]
    exact ⟨hNames, hValues, hText⟩

end Scenarist
