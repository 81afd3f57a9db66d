import Scenarist.Proofs.Regex.Reach

/-!
# What matches remember

A match remembers of each of its groups where the group began and where it ended, the latest time
first.  `Mark` says that an entry was made by a group: an expression with the number of the group
reads the text of the entry at its place.

* `mark_of_mem_groups`: on its way an expression remembers nothing but such entries.
* `Took`: a match has a text of a group; the group has read it, and read nothing later.
* `group?_eq_some_iff`: what is looked up under the number of a group is the text that the match has
  of it, and `group?_isSome_iff`: there is one when the group took part.
-/

namespace Scenarist

namespace Regex

/-- The groups of an expression with what they are put around. -/
def groups : Regex → List (Nat × Regex)
  | .empty | .fail | .set _ | .look _ => []
  | .seq a b | .alt a b => a.groups ++ b.groups
  | .opt _ a | .plus _ a => a.groups
  | .group i a => (i, a) :: a.groups

/-! ### Entries -/

/-- An entry of a group of the expression, which read from one place ahead of `p` to another. -/
def Mark (r : Regex) (p : Spot) (g : Nat × Nat × Nat) : Prop :=
  ∃ a m e, (g.1, a) ∈ r.groups ∧ Leads a m e ∧ p.Ahead m.spot ∧ g.2 = (m.spot.index, e.spot.index)

theorem Mark.mono {r s : Regex} {p : Spot} {g : Nat × Nat × Nat} (h : Mark r p g)
    (hGroups : r.groups ⊆ s.groups) : Mark s p g := by
  obtain ⟨a, m, e, hMem, hRest⟩ := h
  exact ⟨a, m, e, hGroups hMem, hRest⟩

/-- **What is remembered on the way are entries of the groups of the expression.** -/
theorem Leads.mark_of_mem_groups {r : Regex} {h e : Hit} (hLeads : Leads r h e) {p : Spot}
    (hAhead : p.Ahead h.spot) {g : Nat × Nat × Nat} (hg : g ∈ e.groups) :
    g ∈ h.groups ∨ Mark r p g := by
  induction r generalizing h e with
  | empty =>
    obtain rfl : e = h := hLeads
    exact .inl hg
  | fail => exact hLeads.elim
  | set s =>
    obtain ⟨c, _, _, rfl⟩ := hLeads
    exact .inl hg
  | look a =>
    obtain ⟨_, rfl⟩ := hLeads
    exact .inl hg
  | seq a b iha ihb =>
    obtain ⟨m, ha, hb⟩ := hLeads
    rcases ihb hb (hAhead.trans ha.ahead) hg with hBefore | hMark
    · exact (iha ha hAhead hBefore).imp_right fun h => h.mono (List.subset_append_left _ _)
    · exact .inr (hMark.mono (List.subset_append_right _ _))
  | alt a b iha ihb =>
    rcases hLeads with ha | hb
    · exact (iha ha hAhead hg).imp_right fun h => h.mono (List.subset_append_left _ _)
    · exact (ihb hb hAhead hg).imp_right fun h => h.mono (List.subset_append_right _ _)
  | opt greedy a ih =>
    rcases hLeads with ha | rfl
    · exact ih ha hAhead hg
    · exact .inl hg
  | plus greedy a ih =>
    have hChain : Relation.TransGen (Leads a) h e := hLeads
    induction hChain with
    | single ha => exact ih ha hAhead hg
    | @tail m e hFront ha ihFront =>
      have hMiddle : h.spot.Ahead m.spot := Leads.ahead (r := .plus greedy a) hFront
      rcases ih ha (hAhead.trans hMiddle) hg with hBefore | hMark
      · exact ihFront hFront hBefore
      · exact .inr hMark
  | group i a ih =>
    obtain ⟨m, ha, rfl⟩ := hLeads
    rcases List.mem_cons.mp hg with rfl | hg
    · exact .inr ⟨a, h, m, List.mem_cons_self, ha, hAhead, rfl⟩
    · exact (ih ha hAhead hg).imp_right fun h => h.mono (List.subset_cons_self _ _)

/-! ### Texts of groups -/

/-- The expression reads `u` behind `front` in a text. -/
def ReadsAt (a : Regex) (text front u : List Char) : Prop :=
  ∃ m e, Leads a m e ∧ m.spot = (Spot.ofText text).past front ∧
    e.spot = (Spot.ofText text).past (front ++ u)

/-- A match in a text has the text `u` of the group `i`: it stands between `front` and `back`, the
expression in the group has read it, and the match remembers no later time for the group. -/
def Took (r : Regex) (text : List Char) (h : Hit) (i : Nat) (u : List Char) : Prop :=
  ∃ front back later earlier, text = front ++ u ++ back ∧
    (∃ a, (i, a) ∈ r.groups ∧ ReadsAt a text front u) ∧
    h.groups = later ++ (i, front.length, front.length + u.length) :: earlier ∧
    ∀ g ∈ later, g.1 ≠ i

variable {r : Regex} {text start : List Char} {h : Hit} {i : Nat}

/-- The place of an entry of a match in a text. -/
theorem exists_text_of_mark {g : Nat × Nat × Nat} (hMark : Mark r (.ofText text) g) :
    ∃ front u back, text = front ++ u ++ back ∧ g.2 = (front.length, front.length + u.length) ∧
      ∃ a, (g.1, a) ∈ r.groups ∧ ReadsAt a text front u := by
  obtain ⟨a, m, e, hMem, hLeads, ⟨front, hFront, hm⟩, hPlaces⟩ := hMark
  obtain ⟨u, hu, he⟩ := hLeads.ahead
  rw [hm] at hu
  rw [hm, Spot.past_past] at he
  obtain ⟨back, hText⟩ := Spot.append_prefix hFront hu
  refine ⟨front, u, back, hText.symm, ?_, a, hMem, m, e, hLeads, hm, he⟩
  rw [hPlaces, hm, he]
  simp only [Spot.past, Spot.ofText, List.length_append, Nat.zero_add]

theorem take_drop_between (front u back : List Char) :
    ((front ++ (u ++ back)).drop front.length).take (front.length + u.length - front.length) =
      u := by
  rw [List.drop_left, Nat.add_sub_cancel_left, List.take_left]

/-- Something is found under the number of a group when the group took part. -/
theorem group?_isSome_iff (text : List Char) :
    (h.group? text i).isSome = true ↔ ∃ g ∈ h.groups, g.1 = i := by
  rw [Hit.group?, Option.isSome_map, List.find?_isSome]
  simp only [decide_eq_true_eq]

section

variable (hStart : start <+: text) (hLeads : Leads r ⟨(Spot.ofText text).past start, []⟩ h)
include hStart hLeads

/-- **What is looked up under the number of a group is the text that the match has of it.** -/
theorem group?_eq_some_iff {u : List Char} : h.group? text i = some u ↔ Took r text h i u := by
  have hSlice : ∀ front u back : List Char, text = front ++ u ++ back →
      (text.drop front.length).take (front.length + u.length - front.length) = u := by
    rintro front u back rfl
    rw [List.append_assoc, take_drop_between]
  unfold Hit.group?
  rw [Option.map_eq_some_iff]
  constructor
  · rintro ⟨g, hFind, hText⟩
    obtain ⟨hNumber, later, earlier, hGroups, hLater⟩ := List.find?_eq_some_iff_append.mp hFind
    obtain rfl : g.1 = i := of_decide_eq_true hNumber
    have hMem : g ∈ h.groups := by
      rw [hGroups]
      exact List.mem_append_right _ List.mem_cons_self
    have hAhead : (Spot.ofText text).Ahead ((Spot.ofText text).past start) := ⟨start, hStart, rfl⟩
    have hMark := (hLeads.mark_of_mem_groups hAhead hMem).resolve_left List.not_mem_nil
    obtain ⟨front, v, back, hWhole, hPlaces, hRead⟩ := exists_text_of_mark hMark
    obtain ⟨j, place⟩ := g
    obtain rfl : place = (front.length, front.length + v.length) := hPlaces
    obtain rfl : v = u := (hSlice front v back hWhole).symm.trans hText
    exact ⟨front, back, later, earlier, hWhole, hRead, hGroups,
      fun g hg => by simpa using hLater g hg⟩
  · rintro ⟨front, back, later, earlier, hWhole, -, hGroups, hLater⟩
    refine ⟨(i, front.length, front.length + u.length), ?_, hSlice front u back hWhole⟩
    rw [List.find?_eq_some_iff_append, hGroups]
    exact ⟨decide_eq_true rfl, later, earlier, rfl, fun g hg => by simpa using hLater g hg⟩

end

end Regex

end Scenarist
