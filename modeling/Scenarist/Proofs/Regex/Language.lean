import Mathlib.Computability.Language
import Scenarist.Proofs.Regex.Reach

/-!
# The language of an expression

An expression without conditions and groups is known by the texts that it reads.  `Regex.language`
gives these texts.

* `leads_iff_of_plain`: such an expression takes a hit to the places behind the texts of its
  language that lie ahead, and remembers nothing.
* `mem_language_plus_set`: a repeated set reads the non-empty texts over the set.
* `captures_isSome_iff_of_plain`: such an expression is found in a text that has a part in its
  language.
-/

namespace Scenarist

namespace Regex

open Computability Language

/-- Without conditions and groups. -/
def plain : Regex → Bool
  | .empty | .fail | .set _ => true
  | .look _ | .group _ _ => false
  | .seq a b | .alt a b => a.plain && b.plain
  | .opt _ a | .plus _ a => a.plain

/-- The texts that an expression without conditions and groups reads. -/
def language : Regex → Language Char
  | .empty => 1
  | .fail | .look _ | .group _ _ => 0
  | .set s => {u | ∃ c, s.mem c = true ∧ u = [c]}
  | .seq a b => a.language * b.language
  | .alt a b => a.language + b.language
  | .opt _ a => a.language + 1
  | .plus _ a => a.language * a.language∗

theorem language_seq (a b : Regex) : (seq a b).language = a.language * b.language := rfl

theorem language_alt (a b : Regex) : (alt a b).language = a.language + b.language := rfl

theorem language_opt (greedy : Bool) (a : Regex) : (opt greedy a).language = a.language + 1 := rfl

theorem language_sequence_cons (r : Regex) (rs : List Regex) :
    (sequence (r :: rs)).language = r.language * (sequence rs).language := by
  cases rs with
  | nil => exact (mul_one r.language).symm
  | cons s rs => rfl

theorem language_sequence_append (rs ss : List Regex) :
    (sequence (rs ++ ss)).language = (sequence rs).language * (sequence ss).language := by
  induction rs with
  | nil => exact (one_mul (sequence ss).language).symm
  | cons r rs ih => rw [List.cons_append, language_sequence_cons, ih, language_sequence_cons, mul_assoc]

theorem mem_language_choice {rs : List Regex} {u : List Char} :
    u ∈ (choice rs).language ↔ ∃ r ∈ rs, u ∈ r.language := by
  induction rs with
  | nil => exact iff_of_false (notMem_zero u) (by simp)
  | cons r rs ih =>
    rw [List.exists_mem_cons_iff, ← ih]
    cases rs with
    | nil => exact (or_iff_left (notMem_zero u)).symm
    | cons s rs => rfl

/-- A chain of turns reads one text of the language after another, and at least one. -/
theorem transGen_leads_iff {a : Regex}
    (hTurn : ∀ {h e : Hit}, Leads a h e ↔
      ∃ u ∈ a.language, u <+: h.spot.rest ∧ e = ⟨h.spot.past u, h.groups⟩) {h e : Hit} :
    Relation.TransGen (Leads a) h e ↔
      ∃ u ∈ a.language * a.language∗, u <+: h.spot.rest ∧ e = ⟨h.spot.past u, h.groups⟩ := by
  constructor
  · intro hChain
    induction hChain using Relation.TransGen.head_induction_on with
    | single hLeads =>
      obtain ⟨u, hu, hPrefix, rfl⟩ := hTurn.mp hLeads
      refine ⟨u, ?_, hPrefix, rfl⟩
      exact mem_mul.mpr ⟨u, hu, [], nil_mem_kstar _, List.append_nil u⟩
    | head hLeads _ ih =>
      obtain ⟨u, hu, hPrefix, rfl⟩ := hTurn.mp hLeads
      obtain ⟨v, hv, hPrefix', rfl⟩ := ih
      have hStar : v ∈ a.language∗ := mul_kstar_le_kstar (a := a.language) hv
      refine ⟨u ++ v, append_mem_mul hu hStar, Spot.append_prefix hPrefix hPrefix', ?_⟩
      rw [Spot.past_past]
  · rintro ⟨u, hu, hPrefix, rfl⟩
    obtain ⟨v, hv, w, hw, rfl⟩ := mem_mul.mp hu
    obtain ⟨vs, rfl, hvs⟩ := mem_kstar.mp hw
    clear hu hw
    induction vs generalizing h v with
    | nil =>
      rw [List.flatten_nil, List.append_nil] at hPrefix ⊢
      exact .single (hTurn.mpr ⟨v, hv, hPrefix, rfl⟩)
    | cons x vs ih =>
      rw [List.flatten_cons] at hPrefix ⊢
      obtain ⟨hFront, hBehind⟩ := Spot.prefix_of_append_prefix hPrefix
      have hMore : Relation.TransGen (Leads a) ⟨h.spot.past v, h.groups⟩
          ⟨(h.spot.past v).past (x ++ vs.flatten), h.groups⟩ :=
        ih (h := ⟨h.spot.past v, h.groups⟩) x (hvs x List.mem_cons_self)
          (fun y hy => hvs y (List.mem_cons_of_mem x hy)) hBehind
      rw [Spot.past_past] at hMore
      exact .head (hTurn.mpr ⟨v, hv, hFront, rfl⟩) hMore

/-- **An expression without conditions and groups reads the texts of its language.** -/
theorem leads_iff_of_plain {r : Regex} (hPlain : r.plain = true) {h e : Hit} :
    Leads r h e ↔ ∃ u ∈ r.language, u <+: h.spot.rest ∧ e = ⟨h.spot.past u, h.groups⟩ := by
  induction r generalizing h e with
  | empty =>
    constructor
    · intro hLeads
      exact ⟨[], rfl, List.nil_prefix, hLeads⟩
    · rintro ⟨u, hu, _, rfl⟩
      rw [show u = [] from hu]
      rfl
  | fail =>
    constructor
    · exact fun hLeads => hLeads.elim
    · rintro ⟨u, hu, _⟩
      exact absurd hu (notMem_zero u)
  | set s =>
    constructor
    · rintro ⟨c, hc, hMem, rfl⟩
      exact ⟨[c], ⟨c, hMem, rfl⟩, hc, rfl⟩
    · rintro ⟨u, ⟨c, hMem, rfl⟩, hc, rfl⟩
      exact ⟨c, hc, hMem, rfl⟩
  | look a => exact absurd hPlain (by simp [plain])
  | group i a => exact absurd hPlain (by simp [plain])
  | seq a b iha ihb =>
    obtain ⟨ha, hb⟩ := Bool.and_eq_true_iff.mp hPlain
    constructor
    · rintro ⟨m, hm, he⟩
      obtain ⟨u, hu, hPrefix, rfl⟩ := (iha ha).mp hm
      obtain ⟨v, hv, hPrefix', rfl⟩ := (ihb hb).mp he
      refine ⟨u ++ v, append_mem_mul hu hv, Spot.append_prefix hPrefix hPrefix', ?_⟩
      rw [Spot.past_past]
    · rintro ⟨w, hw, hPrefix, rfl⟩
      obtain ⟨u, hu, v, hv, rfl⟩ := mem_mul.mp hw
      obtain ⟨hFront, hBehind⟩ := Spot.prefix_of_append_prefix hPrefix
      refine ⟨⟨h.spot.past u, h.groups⟩, (iha ha).mpr ⟨u, hu, hFront, rfl⟩,
        (ihb hb).mpr ⟨v, hv, hBehind, ?_⟩⟩
      rw [Spot.past_past]
  | alt a b iha ihb =>
    obtain ⟨ha, hb⟩ := Bool.and_eq_true_iff.mp hPlain
    constructor
    · rintro (hm | hm)
      · obtain ⟨u, hu, hRest⟩ := (iha ha).mp hm
        exact ⟨u, .inl hu, hRest⟩
      · obtain ⟨u, hu, hRest⟩ := (ihb hb).mp hm
        exact ⟨u, .inr hu, hRest⟩
    · rintro ⟨u, hu | hu, hRest⟩
      · exact .inl ((iha ha).mpr ⟨u, hu, hRest⟩)
      · exact .inr ((ihb hb).mpr ⟨u, hu, hRest⟩)
  | opt greedy a ih =>
    constructor
    · rintro (hm | rfl)
      · obtain ⟨u, hu, hRest⟩ := (ih hPlain).mp hm
        exact ⟨u, .inl hu, hRest⟩
      · exact ⟨[], .inr rfl, List.nil_prefix, rfl⟩
    · rintro ⟨u, hu | hu, hRest, rfl⟩
      · exact .inl ((ih hPlain).mpr ⟨u, hu, hRest, rfl⟩)
      · rw [show u = [] from hu]
        exact .inr rfl
  | plus greedy a ih => exact transGen_leads_iff (ih hPlain)

/-! ### Sets, one character and repeated -/

theorem mem_language_single {c : Char} {u : List Char} :
    u ∈ (single c).language ↔ u = [c] := by
  constructor
  · rintro ⟨d, hd, rfl⟩
    rw [CharSet.mem_single.mp hd]
  · rintro rfl
    exact ⟨c, CharSet.mem_single.mpr rfl, rfl⟩

theorem mem_language_text {s u : List Char} :
    u ∈ (sequence (s.map single)).language ↔ u = s := by
  induction s generalizing u with
  | nil => rfl
  | cons c s ih =>
    rw [List.map_cons, language_sequence_cons, mem_mul]
    constructor
    · rintro ⟨v, hv, w, hw, rfl⟩
      rw [mem_language_single.mp hv, ih.mp hw]
      rfl
    · rintro rfl
      exact ⟨[c], mem_language_single.mpr rfl, s, ih.mpr rfl, rfl⟩

theorem mem_kstar_language_set {s : CharSet} {u : List Char} :
    u ∈ (Regex.set s).language∗ ↔ ∀ c ∈ u, s.mem c = true := by
  constructor
  · intro hu
    obtain ⟨vs, rfl, hvs⟩ := mem_kstar.mp hu
    intro c hc
    obtain ⟨v, hv, hcv⟩ := List.mem_flatten.mp hc
    obtain ⟨d, hd, rfl⟩ := hvs v hv
    rwa [List.mem_singleton.mp hcv]
  · intro hAll
    refine mem_kstar.mpr ⟨u.map fun c => [c], ?_, fun v hv => ?_⟩
    · induction u with
      | nil => rfl
      | cons c u ih =>
        rw [List.map_cons, List.flatten_cons, ← ih fun d hd => hAll d (List.mem_cons_of_mem c hd)]
        rfl
    · obtain ⟨c, hc, rfl⟩ := List.mem_map.mp hv
      exact ⟨c, hAll c hc, rfl⟩

/-- A repeated set reads the non-empty texts over the set. -/
theorem mem_language_plus_set {greedy : Bool} {s : CharSet} {u : List Char} :
    u ∈ (Regex.plus greedy (.set s)).language ↔ u ≠ [] ∧ ∀ c ∈ u, s.mem c = true := by
  constructor
  · intro hu
    obtain ⟨v, ⟨c, hc, rfl⟩, w, hw, rfl⟩ := mem_mul.mp hu
    refine ⟨by simp, fun d hd => ?_⟩
    rcases List.mem_cons.mp hd with rfl | hd
    · exact hc
    · exact mem_kstar_language_set.mp hw d hd
  · rintro ⟨hNonempty, hAll⟩
    cases u with
    | nil => exact absurd rfl hNonempty
    | cons c u =>
      refine mem_mul.mpr ⟨[c], ⟨c, hAll c List.mem_cons_self, rfl⟩, u, ?_, rfl⟩
      exact mem_kstar_language_set.mpr fun d hd => hAll d (List.mem_cons_of_mem c hd)

theorem mem_language_star_set {greedy : Bool} {s : CharSet} {u : List Char} :
    u ∈ (star greedy (.set s)).language ↔ ∀ c ∈ u, s.mem c = true := by
  show u ∈ (Regex.plus greedy (.set s)).language ∨ u = [] ↔ _
  rw [mem_language_plus_set]
  constructor
  · rintro (⟨-, hAll⟩ | rfl)
    · exact hAll
    · exact fun c hc => absurd hc List.not_mem_nil
  · intro hAll
    by_cases hu : u = []
    · exact .inr hu
    · exact .inl ⟨hu, hAll⟩

/-- Any character but one. -/
theorem forall_mem_compl_single_iff {c : Char} {u : List Char} :
    (∀ d ∈ u, (CharSet.compl (.single c)).mem d = true) ↔ c ∉ u := by
  simp only [CharSet.mem, Bool.not_eq_true', ← Bool.not_eq_true, CharSet.mem_single]
  exact ⟨fun h hMem => h _ hMem rfl, fun h d hd hEq => h (hEq ▸ hd)⟩

/-! ### Search -/

/-- **An expression without conditions and groups is found in a text that has a part in its
language.** -/
theorem captures_isSome_iff_of_plain {r : Regex} (hPlain : r.plain = true) (count : Nat)
    (text : List Char) :
    (r.captures count text).isSome = true ↔ ∃ a u b, text = a ++ u ++ b ∧ u ∈ r.language := by
  rw [captures, Option.isSome_map, search_isSome_iff]
  constructor
  · rintro ⟨a, e, ⟨b, rfl⟩, hLeads⟩
    obtain ⟨u, hu, ⟨v, hv⟩, -⟩ := (leads_iff_of_plain hPlain).mp hLeads
    have hBehind : u ++ v = b := hv.trans List.drop_left
    exact ⟨a, u, v, by rw [List.append_assoc, hBehind], hu⟩
  · rintro ⟨a, u, b, rfl, hu⟩
    have hPrefix : a <+: a ++ u ++ b := ⟨u ++ b, (List.append_assoc a u b).symm⟩
    refine ⟨a, _, hPrefix, (leads_iff_of_plain hPlain).mpr ⟨u, hu, ⟨b, ?_⟩, rfl⟩⟩
    show u ++ b = (a ++ u ++ b).drop a.length
    rw [List.append_assoc, List.drop_left]

end Regex

end Scenarist
