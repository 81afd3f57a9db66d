import Mathlib.Logic.Relation
import Scenarist.Regex.Match

/-!
# What expressions reach

`Regex.Leads r h e` says that the expression `r` can take the hit `h` to the hit `e`.  It follows
the expression and knows no preference; a repetition is a chain of at least one turn.  `Regex.run`
lists the hits of a search, one a place.

* `Leads.ahead`: what an expression reaches lies ahead, behind a text that it reads.  A place
  ahead is therefore known by its index alone (`past_injective`).
* `leads_of_mem_run`: every hit in the list is reached.
* `exists_mem_run_of_leads`: every place that can be reached is in the list.  For a repetition this
  is a search that does not enter a place twice; `Swept` is what it has achieved when it returns.
* `search_eq_some_iff`, `search_isSome_iff`: a search tries every place of a text, and the first
  match of the earliest one counts.
* `search_eq_head?`, `captures_isSome_iff`: an expression that begins at the start of a text is
  tried there only.
-/

namespace Scenarist

/-! ### Places ahead -/

namespace Spot

/-- The place behind a text that is read. -/
def past (p : Spot) (u : List Char) : Spot :=
  ⟨p.index + u.length, u.getLast?.or p.before, p.rest.drop u.length⟩

@[simp] theorem past_nil (p : Spot) : p.past [] = p := rfl

theorem past_past (p : Spot) (u v : List Char) : (p.past u).past v = p.past (u ++ v) := by
  simp only [past, List.length_append, List.drop_drop, List.getLast?_append, Nat.add_assoc,
    Option.or_assoc]

theorem past_singleton {p : Spot} {c : Char} {rest : List Char} (h : p.rest = c :: rest) :
    p.past [c] = ⟨p.index + 1, some c, rest⟩ := by
  simp only [past, h, List.length_singleton, List.getLast?_singleton, Option.some_or,
    List.drop_one, List.tail_cons]

theorem past_cons (i : Nat) (before : Option Char) (c : Char) (s u : List Char) :
    past ⟨i, before, c :: s⟩ (c :: u) = past ⟨i + 1, some c, s⟩ u := by
  show past ⟨i, before, c :: s⟩ ([c] ++ u) = _
  rw [← past_past, past_singleton rfl]

/-- A place ahead is known by its index. -/
theorem past_injective {p : Spot} {u v : List Char} (hu : u <+: p.rest) (hv : v <+: p.rest)
    (h : (p.past u).index = (p.past v).index) : p.past u = p.past v := by
  have hLength : u.length = v.length := Nat.add_left_cancel h
  rw [List.prefix_iff_eq_take.mp hu, List.prefix_iff_eq_take.mp hv, hLength]

theorem append_prefix {p : Spot} {u v : List Char} (hu : u <+: p.rest)
    (hv : v <+: (p.past u).rest) : u ++ v <+: p.rest := by
  obtain ⟨w, hw⟩ := hu
  have hRest : (p.past u).rest = w := by
    show p.rest.drop u.length = w
    rw [← hw, List.drop_left]
  rw [hRest] at hv
  obtain ⟨x, hx⟩ := hv
  exact ⟨x, by rw [← hw, ← hx, List.append_assoc]⟩

theorem prefix_of_append_prefix {p : Spot} {u v : List Char} (h : u ++ v <+: p.rest) :
    u <+: p.rest ∧ v <+: (p.past u).rest := by
  obtain ⟨w, hw⟩ := h
  refine ⟨⟨v ++ w, by rw [← hw, List.append_assoc]⟩, ⟨w, ?_⟩⟩
  show v ++ w = p.rest.drop u.length
  rw [← hw, List.append_assoc, List.drop_left]

/-- The place `q` lies ahead of `p`, or is `p`. -/
def Ahead (p q : Spot) : Prop := ∃ u, u <+: p.rest ∧ q = p.past u

theorem Ahead.refl (p : Spot) : p.Ahead p := ⟨[], List.nil_prefix, rfl⟩

theorem Ahead.trans {p q s : Spot} (h : p.Ahead q) (h' : q.Ahead s) : p.Ahead s := by
  obtain ⟨u, hu, rfl⟩ := h
  obtain ⟨v, hv, rfl⟩ := h'
  exact ⟨u ++ v, append_prefix hu hv, past_past p u v⟩

theorem Ahead.eq_of_index_eq {p q s : Spot} (h : p.Ahead q) (h' : p.Ahead s)
    (hIndex : q.index = s.index) : q = s := by
  obtain ⟨u, hu, rfl⟩ := h
  obtain ⟨v, hv, rfl⟩ := h'
  exact past_injective hu hv hIndex

theorem Ahead.index_le {p q : Spot} (h : p.Ahead q) : p.index ≤ q.index := by
  obtain ⟨u, _, rfl⟩ := h
  exact Nat.le_add_right _ _

theorem Ahead.length_rest_lt {p q : Spot} (h : p.Ahead q) (hIndex : p.index < q.index) :
    q.rest.length < p.rest.length := by
  obtain ⟨u, hu, rfl⟩ := h
  have hLength : u.length ≤ p.rest.length := hu.length_le
  simp only [past, List.length_drop] at hIndex ⊢
  omega

end Spot

namespace Regex

/-! ### The relation -/

/-- The expression can take a hit to a hit. -/
def Leads : Regex → Hit → Hit → Prop
  | .empty, h, e => e = h
  | .fail, _, _ => False
  | .set s, h, e =>
    ∃ c, [c] <+: h.spot.rest ∧ s.mem c = true ∧ e = ⟨h.spot.past [c], h.groups⟩
  | .look a, h, e => a.holds h.spot = true ∧ e = h
  | .seq a b, h, e => ∃ m, Leads a h m ∧ Leads b m e
  | .alt a b, h, e => Leads a h e ∨ Leads b h e
  | .opt _ a, h, e => Leads a h e ∨ e = h
  | .plus _ a, h, e => Relation.TransGen (Leads a) h e
  | .group i a, h, e =>
    ∃ m, Leads a h m ∧ e = ⟨m.spot, (i, h.spot.index, m.spot.index) :: m.groups⟩

/-- An expression reads a text on its way. -/
theorem Leads.ahead {r : Regex} {h e : Hit} (hLeads : Leads r h e) : h.spot.Ahead e.spot := by
  induction r generalizing h e with
  | empty => rw [show e = h from hLeads]; exact .refl _
  | fail => exact hLeads.elim
  | set s =>
    obtain ⟨c, hc, _, rfl⟩ := hLeads
    exact ⟨[c], hc, rfl⟩
  | look a => rw [show e = h from hLeads.2]; exact .refl _
  | seq a b iha ihb =>
    obtain ⟨m, ha, hb⟩ := hLeads
    exact (iha ha).trans (ihb hb)
  | alt a b iha ihb => exact hLeads.elim iha ihb
  | opt greedy a ih =>
    rcases hLeads with ha | rfl
    · exact ih ha
    · exact .refl _
  | plus greedy a ih =>
    have hChain : Relation.TransGen (Leads a) h e := hLeads
    induction hChain with
    | single ha => exact ih ha
    | tail _ ha ihChain => exact (ihChain ‹_›).trans (ih ha)
  | group i a ih =>
    obtain ⟨m, ha, rfl⟩ := hLeads
    show h.spot.Ahead m.spot
    exact ih ha

/-- Where an expression can go depends on the place and not on the groups remembered. -/
theorem Leads.of_spot_eq {r : Regex} {h e h' : Hit} (hLeads : Leads r h e)
    (hSpot : h'.spot = h.spot) : ∃ e', Leads r h' e' ∧ e'.spot = e.spot := by
  induction r generalizing h e h' with
  | empty => exact ⟨h', rfl, by rw [hSpot, show e = h from hLeads]⟩
  | fail => exact hLeads.elim
  | set s =>
    obtain ⟨c, hc, hMem, rfl⟩ := hLeads
    exact ⟨_, ⟨c, hSpot ▸ hc, hMem, rfl⟩, by rw [hSpot]⟩
  | look a => exact ⟨h', ⟨hSpot ▸ hLeads.1, rfl⟩, by rw [hSpot, show e = h from hLeads.2]⟩
  | seq a b iha ihb =>
    obtain ⟨m, ha, hb⟩ := hLeads
    obtain ⟨m', ha', hm⟩ := iha ha hSpot
    obtain ⟨e', hb', he⟩ := ihb hb hm
    exact ⟨e', ⟨m', ha', hb'⟩, he⟩
  | alt a b iha ihb =>
    rcases hLeads with ha | hb
    · obtain ⟨e', ha', he⟩ := iha ha hSpot
      exact ⟨e', .inl ha', he⟩
    · obtain ⟨e', hb', he⟩ := ihb hb hSpot
      exact ⟨e', .inr hb', he⟩
  | opt greedy a ih =>
    rcases hLeads with ha | rfl
    · obtain ⟨e', ha', he⟩ := ih ha hSpot
      exact ⟨e', .inl ha', he⟩
    · exact ⟨h', .inr rfl, hSpot⟩
  | plus greedy a ih =>
    have hChain : Relation.TransGen (Leads a) h e := hLeads
    induction hChain with
    | single ha =>
      obtain ⟨e', ha', he⟩ := ih ha hSpot
      exact ⟨e', .single ha', he⟩
    | tail hFront ha ihChain =>
      obtain ⟨m', hChain', hm⟩ := ihChain hFront
      obtain ⟨e', ha', he⟩ := ih ha hm
      exact ⟨e', .tail hChain' ha', he⟩
  | group i a ih =>
    obtain ⟨m, ha, rfl⟩ := hLeads
    obtain ⟨m', ha', hm⟩ := ih ha hSpot
    exact ⟨_, ⟨m', ha', rfl⟩, hm⟩

/-! ### One hit a place -/

theorem mem_of_mem_firstHits {seen : List Nat} {hits : List Hit} {e : Hit}
    (h : e ∈ firstHits seen hits) : e ∈ hits := by
  induction hits generalizing seen with
  | nil => exact absurd h (by simp [firstHits])
  | cons x rest ih =>
    rw [firstHits] at h
    split at h
    · exact List.mem_cons_of_mem x (ih h)
    · rcases List.mem_cons.mp h with rfl | h
      · exact List.mem_cons_self
      · exact List.mem_cons_of_mem x (ih h)

theorem exists_mem_firstHits {seen : List Nat} {hits : List Hit} {e : Hit} (h : e ∈ hits)
    (hSeen : e.spot.index ∉ seen) :
    ∃ e' ∈ firstHits seen hits, e'.spot.index = e.spot.index := by
  induction hits generalizing seen with
  | nil => exact absurd h (by simp)
  | cons x rest ih =>
    rw [firstHits]
    split
    · next hx =>
      rcases List.mem_cons.mp h with rfl | h
      · exact absurd (List.contains_iff_mem.mp hx) hSeen
      · exact ih h hSeen
    · by_cases hIndex : x.spot.index = e.spot.index
      · exact ⟨x, List.mem_cons_self, hIndex⟩
      · rcases List.mem_cons.mp h with rfl | h
        · exact absurd rfl hIndex
        · obtain ⟨e', he', hEq⟩ := ih h fun hMem => by
            rcases List.mem_cons.mp hMem with hMem | hMem
            · exact hIndex hMem.symm
            · exact hSeen hMem
          exact ⟨e', List.mem_cons_of_mem x he', hEq⟩

/-! ### Repetitions -/

/-- One turn of a sweep: what a hit adds to the hits found and the places seen. -/
def visit (greedy : Bool) (step : Hit → List Hit) (n : Nat) (origin : Hit)
    (acc : List Hit × List Nat) (h : Hit) : List Hit × List Nat :=
  if acc.2.contains h.spot.index then acc
  else
    let deeper := if origin.spot.index < h.spot.index then
      sweep greedy step n h (h.spot.index :: acc.2) else ([], h.spot.index :: acc.2)
    (acc.1 ++ (if greedy then deeper.1 ++ [h] else h :: deeper.1), deeper.2)

theorem sweep_succ (greedy : Bool) (step : Hit → List Hit) (n : Nat) (origin : Hit)
    (seen : List Nat) :
    sweep greedy step (n + 1) origin seen =
      (step origin).foldl (visit greedy step n origin) ([], seen) := by
  rw [sweep]
  congr 1

theorem mem_visit_fst {greedy : Bool} {step : Hit → List Hit} {n : Nat} {origin h e : Hit}
    {acc : List Hit × List Nat} (he : e ∈ (visit greedy step n origin acc h).1) :
    e ∈ acc.1 ∨ e = h ∨ e ∈ (sweep greedy step n h (h.spot.index :: acc.2)).1 := by
  unfold visit at he
  split at he
  · exact .inl he
  · dsimp only at he
    rcases List.mem_append.mp he with he | he
    · exact .inl he
    · refine .inr ?_
      have hCases : e = h ∨ e ∈ (if origin.spot.index < h.spot.index then
          sweep greedy step n h (h.spot.index :: acc.2) else ([], h.spot.index :: acc.2)).1 := by
        cases greedy <;> simpa [or_comm] using he
      rcases hCases with rfl | he
      · exact .inl rfl
      · split at he
        · exact .inr he
        · exact absurd he (by simp)

section Sweep

variable {L : Hit → Hit → Prop} {step : Hit → List Hit} {greedy : Bool}

/-- What a sweep finds is reached by at least one turn. -/
theorem transGen_of_mem_sweep (hSound : ∀ h e, e ∈ step h → L h e) {n : Nat} {origin e : Hit}
    {seen : List Nat} (he : e ∈ (sweep greedy step n origin seen).1) :
    Relation.TransGen L origin e := by
  induction n generalizing origin seen e with
  | zero => exact absurd he (by simp [sweep])
  | succ n ih =>
    have hFold : ∀ (hits : List Hit) (acc : List Hit × List Nat), (∀ h ∈ hits, L origin h) →
        (∀ x ∈ acc.1, Relation.TransGen L origin x) →
        ∀ x ∈ (hits.foldl (visit greedy step n origin) acc).1, Relation.TransGen L origin x := by
      intro hits
      induction hits with
      | nil => exact fun acc _ hAcc => hAcc
      | cons h rest ihRest =>
        intro acc hHits hAcc
        refine ihRest _ (fun x hx => hHits x (List.mem_cons_of_mem h hx)) fun x hx => ?_
        rcases mem_visit_fst hx with hx | rfl | hx
        · exact hAcc x hx
        · exact .single (hHits x List.mem_cons_self)
        · exact .head (hHits h List.mem_cons_self) (ih hx)
    rw [sweep_succ] at he
    exact hFold (step origin) ([], seen) (hSound origin) (by simp) e he

/-- What a sweep has achieved: places seen before are still seen, every new one has a hit, the next
places are all seen, and nothing leads out of the new ones. -/
structure Swept (L : Hit → Hit → Prop) (base : Spot) (origin : Hit) (seen : List Nat)
    (result : List Hit × List Nat) : Prop where
  keeps : ∀ j ∈ seen, j ∈ result.2
  found : ∀ j ∈ result.2, j ∈ seen ∨ ∃ e ∈ result.1, e.spot.index = j
  next : ∀ e, L origin e → e.spot.index ∈ result.2
  closed : ∀ j ∈ result.2, j ∉ seen → ∀ h e, base.Ahead h.spot → h.spot.index = j → L h e →
    e.spot.index ∈ result.2

/-- What a sweep has achieved behind some of its turns.  Out of the place of the origin there may
still lead more. -/
structure Sweeping (L : Hit → Hit → Prop) (base : Spot) (origin : Hit) (seen : List Nat)
    (turns : List Hit) (acc : List Hit × List Nat) : Prop where
  keeps : ∀ j ∈ seen, j ∈ acc.2
  found : ∀ j ∈ acc.2, j ∈ seen ∨ ∃ e ∈ acc.1, e.spot.index = j
  taken : ∀ h ∈ turns, h.spot.index ∈ acc.2
  closed : ∀ j ∈ acc.2, j ∉ seen → j = origin.spot.index ∨ ∀ h e, base.Ahead h.spot →
    h.spot.index = j → L h e → e.spot.index ∈ acc.2

/-- A turn to a place that is seen already. -/
theorem Sweeping.visit_seen {base : Spot} {origin h : Hit} {seen : List Nat} {turns : List Hit}
    {acc : List Hit × List Nat} (hAcc : Sweeping L base origin seen turns acc)
    (hSeen : h.spot.index ∈ acc.2) : Sweeping L base origin seen (turns ++ [h]) acc where
  keeps := hAcc.keeps
  found := hAcc.found
  taken x hx := by
    rcases List.mem_append.mp hx with hx | hx
    · exact hAcc.taken x hx
    · rw [List.mem_singleton.mp hx]
      exact hSeen
  closed := hAcc.closed

/-- A turn to a new place ahead, from which the sweep goes on. -/
theorem Sweeping.visit_ahead
    (hSpot : ∀ h e h', L h e → h'.spot = h.spot → ∃ e', L h' e' ∧ e'.spot = e.spot)
    {base : Spot} {origin h : Hit} {seen : List Nat} {turns : List Hit}
    {acc deeper : List Hit × List Nat} (hAcc : Sweeping L base origin seen turns acc)
    (hBase : base.Ahead h.spot)
    (hDeeper : Swept L base h (h.spot.index :: acc.2) deeper) (out : List Hit)
    (hOut : ∀ e, e ∈ out ↔ e ∈ acc.1 ∨ e = h ∨ e ∈ deeper.1) :
    Sweeping L base origin seen (turns ++ [h]) (out, deeper.2) where
  keeps j hj := hDeeper.keeps j (List.mem_cons_of_mem _ (hAcc.keeps j hj))
  found j hj := by
    rcases hDeeper.found j hj with hj | ⟨e, he, hIndex⟩
    · rcases List.mem_cons.mp hj with rfl | hj
      · exact .inr ⟨h, (hOut h).mpr (.inr (.inl rfl)), rfl⟩
      · exact (hAcc.found j hj).imp id fun ⟨e, he, hIndex⟩ => ⟨e, (hOut e).mpr (.inl he), hIndex⟩
    · exact .inr ⟨e, (hOut e).mpr (.inr (.inr he)), hIndex⟩
  taken x hx := by
    rcases List.mem_append.mp hx with hx | hx
    · exact hDeeper.keeps _ (List.mem_cons_of_mem _ (hAcc.taken x hx))
    · rw [List.mem_singleton.mp hx]
      exact hDeeper.keeps _ List.mem_cons_self
  closed j hj hNew := by
    by_cases hHere : j = h.spot.index
    · refine .inr fun h' e hAhead hIndex hLeads => ?_
      have hSame : h.spot = h'.spot :=
        hBase.eq_of_index_eq hAhead (hHere.symm.trans hIndex.symm)
      obtain ⟨e', hLeads', he'⟩ := hSpot h' e h hLeads hSame
      exact he' ▸ hDeeper.next e' hLeads'
    · by_cases hBefore : j ∈ acc.2
      · refine (hAcc.closed j hBefore hNew).imp id fun hClosed h' e hAhead hIndex hLeads => ?_
        exact hDeeper.keeps _ (List.mem_cons_of_mem _ (hClosed h' e hAhead hIndex hLeads))
      · exact .inr (hDeeper.closed j hj (by simp [hHere, hBefore]))

/-- A turn to a new place that is not ahead: it is the place of the origin. -/
theorem Sweeping.visit_here {base : Spot} {origin h : Hit} {seen : List Nat} {turns : List Hit}
    {acc : List Hit × List Nat} (hAcc : Sweeping L base origin seen turns acc)
    (hIndex : h.spot.index = origin.spot.index) (out : List Hit)
    (hOut : ∀ e, e ∈ out ↔ e ∈ acc.1 ∨ e = h) :
    Sweeping L base origin seen (turns ++ [h]) (out, h.spot.index :: acc.2) where
  keeps j hj := List.mem_cons_of_mem _ (hAcc.keeps j hj)
  found j hj := by
    rcases List.mem_cons.mp hj with rfl | hj
    · exact .inr ⟨h, (hOut h).mpr (.inr rfl), rfl⟩
    · exact (hAcc.found j hj).imp id fun ⟨e, he, hIndex⟩ => ⟨e, (hOut e).mpr (.inl he), hIndex⟩
  taken x hx := by
    rcases List.mem_append.mp hx with hx | hx
    · exact List.mem_cons_of_mem _ (hAcc.taken x hx)
    · rw [List.mem_singleton.mp hx]
      exact List.mem_cons_self
  closed j hj hNew := by
    rcases List.mem_cons.mp hj with rfl | hj
    · exact .inl hIndex
    · refine (hAcc.closed j hj hNew).imp id fun hClosed h' e hAhead hj' hLeads => ?_
      exact List.mem_cons_of_mem _ (hClosed h' e hAhead hj' hLeads)

/-- A sweep with enough steps achieves all that it is there for. -/
theorem swept_sweep (hSound : ∀ h e, e ∈ step h → L h e)
    (hComplete : ∀ h e, L h e → ∃ e' ∈ step h, e'.spot = e.spot)
    (hAhead : ∀ h e, L h e → h.spot.Ahead e.spot)
    (hSpot : ∀ h e h', L h e → h'.spot = h.spot → ∃ e', L h' e' ∧ e'.spot = e.spot)
    {base : Spot} {n : Nat} {origin : Hit} (hBase : base.Ahead origin.spot)
    (hn : origin.spot.rest.length < n) (seen : List Nat) :
    Swept L base origin seen (sweep greedy step n origin seen) := by
  induction n generalizing origin seen with
  | zero => exact absurd hn (Nat.not_lt_zero _)
  | succ n ih =>
    -- Behind each turn the fold keeps what `Sweeping` says of the turns taken so far.
    have hFold : ∀ (hits turns : List Hit) (acc : List Hit × List Nat), (∀ h ∈ hits, L origin h) →
        Sweeping L base origin seen turns acc →
        Sweeping L base origin seen (turns ++ hits)
          (hits.foldl (visit greedy step n origin) acc) := by
      intro hits
      induction hits with
      | nil => intro turns acc _ hAcc; rw [List.append_nil]; exact hAcc
      | cons h rest ihRest =>
        intro turns acc hHits hAcc
        have hTurn : L origin h := hHits h List.mem_cons_self
        have hOrigin : origin.spot.Ahead h.spot := hAhead origin h hTurn
        have hVisit : Sweeping L base origin seen (turns ++ [h])
            (visit greedy step n origin acc h) := by
          unfold visit
          split
          · next hSeen => exact hAcc.visit_seen (List.contains_iff_mem.mp hSeen)
          · by_cases hLt : origin.spot.index < h.spot.index
            · simp only [if_pos hLt]
              refine hAcc.visit_ahead hSpot (hBase.trans hOrigin)
                (ih (hBase.trans hOrigin) ?_ (h.spot.index :: acc.2)) _ fun e => ?_
              · have := hOrigin.length_rest_lt hLt
                omega
              · cases greedy <;> simp [or_comm, or_left_comm]
            · simp only [if_neg hLt]
              have hIndex : h.spot.index = origin.spot.index :=
                Nat.le_antisymm (Nat.le_of_not_lt hLt) hOrigin.index_le
              refine hAcc.visit_here hIndex _ fun e => ?_
              cases greedy <;> simp
        rw [List.append_cons, List.foldl_cons]
        exact ihRest _ _ (fun x hx => hHits x (List.mem_cons_of_mem h hx)) hVisit
    have hStart : Sweeping L base origin seen [] ([], seen) :=
      ⟨fun _ hj => hj, fun _ hj => .inl hj, by simp, fun _ hj hNew => absurd hj hNew⟩
    have hEnd := hFold (step origin) [] ([], seen) (hSound origin) hStart
    rw [List.nil_append, ← sweep_succ] at hEnd
    have hNext : ∀ e, L origin e →
        e.spot.index ∈ (sweep greedy step (n + 1) origin seen).2 := by
      intro e hLeads
      obtain ⟨e', he', hSame⟩ := hComplete origin e hLeads
      exact hSame ▸ hEnd.taken e' he'
    refine ⟨hEnd.keeps, hEnd.found, hNext, fun j hj hNew h e hAheadBase hIndex hLeads => ?_⟩
    rcases hEnd.closed j hj hNew with rfl | hClosed
    · have hSame : origin.spot = h.spot := hBase.eq_of_index_eq hAheadBase hIndex.symm
      obtain ⟨e', hLeads', he'⟩ := hSpot h e origin hLeads hSame
      exact he' ▸ hNext e' hLeads'
    · exact hClosed h e hAheadBase hIndex hLeads

/-- A sweep from nothing seen finds every place that a chain of turns reaches. -/
theorem exists_mem_sweep_of_transGen (hSound : ∀ h e, e ∈ step h → L h e)
    (hComplete : ∀ h e, L h e → ∃ e' ∈ step h, e'.spot = e.spot)
    (hAhead : ∀ h e, L h e → h.spot.Ahead e.spot)
    (hSpot : ∀ h e h', L h e → h'.spot = h.spot → ∃ e', L h' e' ∧ e'.spot = e.spot)
    {h e : Hit} (hChain : Relation.TransGen L h e) :
    ∃ e' ∈ (sweep greedy step (h.spot.rest.length + 1) h []).1, e'.spot = e.spot := by
  have hSwept : Swept L h.spot h [] (sweep greedy step (h.spot.rest.length + 1) h []) :=
    swept_sweep hSound hComplete hAhead hSpot (.refl _) (Nat.lt_succ_self _) []
  have hAheadChain : ∀ {x}, Relation.TransGen L h x → h.spot.Ahead x.spot := by
    intro x hx
    induction hx with
    | single hL => exact hAhead _ _ hL
    | tail _ hL ih => exact ih.trans (hAhead _ _ hL)
  have hIndex : e.spot.index ∈ (sweep greedy step (h.spot.rest.length + 1) h []).2 := by
    induction hChain with
    | single hL => exact hSwept.next _ hL
    | tail hFront hL ih =>
      exact hSwept.closed _ ih (by simp) _ _ (hAheadChain hFront) rfl hL
  rcases hSwept.found _ hIndex with hNil | ⟨e', he', hSame⟩
  · exact absurd hNil (by simp)
  · exact ⟨e', he', (hAheadChain (transGen_of_mem_sweep hSound he')).eq_of_index_eq
      (hAheadChain hChain) hSame⟩

end Sweep

/-- **Every hit in the list is reached.** -/
theorem leads_of_mem_run {r : Regex} {h e : Hit} (he : e ∈ run r h) : Leads r h e := by
  induction r generalizing h e with
  | empty => exact List.mem_singleton.mp he
  | fail => exact absurd he (by simp [run])
  | set s =>
    rw [run] at he
    split at he
    · exact absurd he (by simp)
    · next c rest hRest =>
      split at he
      · next hMem =>
        refine ⟨c, hRest ▸ List.prefix_append [c] rest, hMem, ?_⟩
        rw [Spot.past_singleton hRest]
        exact List.mem_singleton.mp he
      · exact absurd he (by simp)
  | look a =>
    rw [run] at he
    split at he
    · next hHolds => exact ⟨hHolds, List.mem_singleton.mp he⟩
    · exact absurd he (by simp)
  | seq a b iha ihb =>
    rw [run] at he
    obtain ⟨m, hm, hb⟩ := List.mem_flatMap.mp (mem_of_mem_firstHits he)
    exact ⟨m, iha hm, ihb hb⟩
  | alt a b iha ihb =>
    rw [run] at he
    rcases List.mem_append.mp (mem_of_mem_firstHits he) with ha | hb
    · exact .inl (iha ha)
    · exact .inr (ihb hb)
  | opt greedy a ih =>
    rw [run] at he
    have hCases : e ∈ run a h ∨ e = h := by
      cases greedy <;> simpa [or_comm] using mem_of_mem_firstHits he
    exact hCases.imp ih id
  | plus greedy a ih =>
    rw [run] at he
    have hTurn : ∀ x y, y ∈ run a x → Leads a x y := fun _ _ hy => ih hy
    exact transGen_of_mem_sweep hTurn he
  | group i a ih =>
    rw [run] at he
    obtain ⟨m, hm, rfl⟩ := List.mem_map.mp he
    exact ⟨m, ih hm, rfl⟩

/-- The first hits have one for the place of every hit that lies ahead. -/
theorem exists_mem_firstHits_of_ahead {p : Spot} {hits : List Hit} {e : Hit}
    (hAhead : ∀ x ∈ hits, p.Ahead x.spot) (he : e ∈ hits) :
    ∃ e' ∈ firstHits [] hits, e'.spot = e.spot := by
  obtain ⟨e', he', hIndex⟩ := exists_mem_firstHits he List.not_mem_nil
  exact ⟨e', he', (hAhead e' (mem_of_mem_firstHits he')).eq_of_index_eq (hAhead e he) hIndex⟩

/-- **Every place that can be reached is in the list.** -/
theorem exists_mem_run_of_leads {r : Regex} {h e : Hit} (hLeads : Leads r h e) :
    ∃ e' ∈ run r h, e'.spot = e.spot := by
  induction r generalizing h e with
  | empty => exact ⟨h, by simp [run], by rw [show e = h from hLeads]⟩
  | fail => exact hLeads.elim
  | set s =>
    obtain ⟨c, ⟨rest, hRest⟩, hMem, rfl⟩ := hLeads
    have hCons : h.spot.rest = c :: rest := hRest.symm
    refine ⟨_, ?_, rfl⟩
    rw [run, Spot.past_singleton hCons]
    simp [hCons, hMem]
  | look a => exact ⟨h, by simp [run, hLeads.1], by rw [show e = h from hLeads.2]⟩
  | seq a b iha ihb =>
    obtain ⟨m, ha, hb⟩ := hLeads
    obtain ⟨m', hm', hm⟩ := iha ha
    obtain ⟨x, hx, hxSpot⟩ := hb.of_spot_eq hm
    obtain ⟨e', he', heSpot⟩ := ihb hx
    have hAhead : ∀ y ∈ (run a h).flatMap (run b), h.spot.Ahead y.spot := by
      intro y hy
      obtain ⟨z, hz, hyz⟩ := List.mem_flatMap.mp hy
      exact (leads_of_mem_run hz).ahead.trans (leads_of_mem_run hyz).ahead
    obtain ⟨e'', he'', hSame⟩ :=
      exists_mem_firstHits_of_ahead hAhead (List.mem_flatMap.mpr ⟨m', hm', he'⟩)
    exact ⟨e'', by rw [run]; exact he'', hSame.trans (heSpot.trans hxSpot)⟩
  | alt a b iha ihb =>
    have hAhead : ∀ y ∈ run a h ++ run b h, h.spot.Ahead y.spot := by
      intro y hy
      rcases List.mem_append.mp hy with hy | hy
      · exact (leads_of_mem_run hy).ahead
      · exact (leads_of_mem_run hy).ahead
    obtain ⟨e', he', heSpot⟩ : ∃ e' ∈ run a h ++ run b h, e'.spot = e.spot := by
      rcases hLeads with ha | hb
      · obtain ⟨e', he', hSame⟩ := iha ha
        exact ⟨e', List.mem_append_left _ he', hSame⟩
      · obtain ⟨e', he', hSame⟩ := ihb hb
        exact ⟨e', List.mem_append_right _ he', hSame⟩
    obtain ⟨e'', he'', hSame⟩ := exists_mem_firstHits_of_ahead hAhead he'
    exact ⟨e'', by rw [run]; exact he'', hSame.trans heSpot⟩
  | opt greedy a ih =>
    have hMem : ∀ y, y ∈ (if greedy then run a h ++ [h] else h :: run a h) ↔
        y ∈ run a h ∨ y = h := by
      intro y
      cases greedy <;> simp [or_comm]
    have hAhead : ∀ y ∈ (if greedy then run a h ++ [h] else h :: run a h),
        h.spot.Ahead y.spot := by
      intro y hy
      rcases (hMem y).mp hy with hy | rfl
      · exact (leads_of_mem_run hy).ahead
      · exact .refl _
    obtain ⟨e', he', heSpot⟩ : ∃ e' ∈ (if greedy then run a h ++ [h] else h :: run a h),
        e'.spot = e.spot := by
      rcases hLeads with ha | rfl
      · obtain ⟨e', he', hSame⟩ := ih ha
        exact ⟨e', (hMem e').mpr (.inl he'), hSame⟩
      · exact ⟨e, (hMem e).mpr (.inr rfl), rfl⟩
    obtain ⟨e'', he'', hSame⟩ := exists_mem_firstHits_of_ahead hAhead he'
    exact ⟨e'', by rw [run]; exact he'', hSame.trans heSpot⟩
  | plus greedy a ih =>
    rw [run]
    exact exists_mem_sweep_of_transGen (fun _ _ => leads_of_mem_run) (fun _ _ => ih)
      (fun _ _ => Leads.ahead) (fun _ _ _ => Leads.of_spot_eq) hLeads
  | group i a ih =>
    obtain ⟨m, ha, rfl⟩ := hLeads
    obtain ⟨m', hm', hSame⟩ := ih ha
    refine ⟨⟨m'.spot, (i, h.spot.index, m'.spot.index) :: m'.groups⟩, ?_, hSame⟩
    rw [run]
    exact List.mem_map.mpr ⟨m', hm', rfl⟩

theorem run_ne_nil_iff {r : Regex} {h : Hit} : run r h ≠ [] ↔ ∃ e, Leads r h e := by
  constructor
  · intro hNonempty
    obtain ⟨e, he⟩ := List.exists_mem_of_ne_nil _ hNonempty
    exact ⟨e, leads_of_mem_run he⟩
  · rintro ⟨e, hLeads⟩
    obtain ⟨e', he', -⟩ := exists_mem_run_of_leads hLeads
    exact List.ne_nil_of_mem he'

/-- The match that counts: the first one of the earliest place, behind `front`, that has any. -/
structure Preferred (r : Regex) (p : Spot) (front : List Char) (h : Hit) : Prop where
  inside : front <+: p.rest
  earliest : ∀ a, a <+: front → a ≠ front → ∀ e, ¬ Leads r ⟨p.past a, []⟩ e
  first : (run r ⟨p.past front, []⟩).head? = some h

theorem Preferred.leads {r : Regex} {p : Spot} {front : List Char} {h : Hit}
    (hPreferred : Preferred r p front h) : Leads r ⟨p.past front, []⟩ h :=
  leads_of_mem_run (List.mem_of_mem_head? hPreferred.first)

theorem preferred_here {r : Regex} {p : Spot} {h : Hit} (hFirst : (run r ⟨p, []⟩).head? = some h) :
    Preferred r p [] h :=
  ⟨List.nil_prefix, fun _ ha hOther => absurd (List.prefix_nil.mp ha) hOther, hFirst⟩

/-- **A search finds the match that counts.** -/
theorem search_eq_some_iff {r : Regex} {i : Nat} {before : Option Char} {text : List Char}
    {h : Hit} :
    search r i before text = some h ↔ ∃ front, Preferred r ⟨i, before, text⟩ front h := by
  induction text generalizing i before with
  | nil =>
    rw [search]
    constructor
    · exact fun hFirst => ⟨[], preferred_here hFirst⟩
    · rintro ⟨front, hInside, -, hFirst⟩
      obtain rfl := List.prefix_nil.mp hInside
      exact hFirst
  | cons c s ih =>
    rw [search]
    split
    · next hit more hRun =>
      have hHere : (run r ⟨⟨i, before, c :: s⟩, []⟩).head? = some hit := by
        rw [hRun, List.head?_cons]
      constructor
      · intro hFound
        obtain rfl := Option.some.inj hFound
        exact ⟨[], preferred_here hHere⟩
      · rintro ⟨front, -, hEarliest, hFirst⟩
        cases front with
        | nil => exact hHere.symm.trans hFirst
        | cons d front =>
          have hLeads := leads_of_mem_run (List.mem_of_mem_head? hHere)
          exact absurd hLeads (hEarliest [] List.nil_prefix (List.cons_ne_nil d front).symm hit)
    · next hRun =>
      rw [ih]
      constructor
      · rintro ⟨front, hInside, hEarliest, hFirst⟩
        refine ⟨c :: front, List.cons_prefix_cons.mpr ⟨rfl, hInside⟩, ?_, ?_⟩
        · intro a ha hOther e hLeads
          cases a with
          | nil => exact run_ne_nil_iff.mpr ⟨e, hLeads⟩ hRun
          | cons d a =>
            obtain ⟨rfl, hMore⟩ := List.cons_prefix_cons.mp ha
            exact hEarliest a hMore (fun hSame => hOther (hSame ▸ rfl)) e
              (Spot.past_cons i before d s a ▸ hLeads)
        · rw [Spot.past_cons]
          exact hFirst
      · rintro ⟨front, hInside, hEarliest, hFirst⟩
        cases front with
        | nil =>
          rw [Spot.past_nil, hRun] at hFirst
          cases hFirst
        | cons d front =>
          obtain ⟨rfl, hMore⟩ := List.cons_prefix_cons.mp hInside
          refine ⟨front, hMore, ?_, ?_⟩
          · intro a ha hOther e hLeads
            refine hEarliest (d :: a) (List.cons_prefix_cons.mpr ⟨rfl, ha⟩)
              (fun hSame => hOther (List.cons.inj hSame).2) e ?_
            rw [Spot.past_cons]
            exact hLeads
          · rw [Spot.past_cons] at hFirst
            exact hFirst

/-- **A search tries the places of a text one by one.**  It finds something when the expression can
read from one of them. -/
theorem search_isSome_iff {r : Regex} {i : Nat} {before : Option Char} {text : List Char} :
    (search r i before text).isSome = true ↔
      ∃ a e, a <+: text ∧ Leads r ⟨Spot.past ⟨i, before, text⟩ a, []⟩ e := by
  constructor
  · intro hSome
    obtain ⟨e, hFound⟩ := Option.isSome_iff_exists.mp hSome
    obtain ⟨a, hPreferred⟩ := search_eq_some_iff.mp hFound
    exact ⟨a, e, hPreferred.inside, hPreferred.leads⟩
  · rintro ⟨a, e, ha, hLeads⟩
    induction text generalizing i before a with
    | nil =>
      obtain rfl := List.prefix_nil.mp ha
      rw [search, List.isSome_head?, run_ne_nil_iff]
      exact ⟨e, hLeads⟩
    | cons c s ih =>
      rw [search]
      split
      · rfl
      · next hRun =>
        cases a with
        | nil => exact absurd hRun (run_ne_nil_iff.mpr ⟨e, hLeads⟩)
        | cons d a =>
          obtain ⟨rfl, hBehind⟩ := List.cons_prefix_cons.mp ha
          exact ih a hBehind (Spot.past_cons i before d s a ▸ hLeads)

/-! ### From the start of a text -/

section Start

variable {r : Regex} (hStart : ∀ h e, Leads r h e → h.spot.before = none)
include hStart

theorem search_behind (i : Nat) (c : Char) (s : List Char) : search r i (some c) s = none := by
  have hNone : ∀ i c s, run r ⟨⟨i, some c, s⟩, []⟩ = [] := by
    intro i c s
    refine List.eq_nil_iff_forall_not_mem.mpr fun e he => ?_
    have hBefore : some c = none := hStart _ e (leads_of_mem_run he)
    exact absurd hBefore (Option.some_ne_none c)
  induction s generalizing i c with
  | nil => rw [search, hNone, List.head?_nil]
  | cons d s ih => rw [search, hNone, ih]

theorem search_eq_head? (text : List Char) :
    search r 0 none text = (run r ⟨.ofText text, []⟩).head? := by
  cases text with
  | nil => rfl
  | cons c s =>
    have hSpot : Spot.ofText (c :: s) = ⟨0, none, c :: s⟩ := rfl
    rw [hSpot, search]
    split
    · next h more hRun => rw [hRun, List.head?_cons]
    · next hRun => rw [hRun, List.head?_nil, search_behind hStart]

/-- **An expression that begins at the start captures from a text that it can read a part of.** -/
theorem captures_isSome_iff (count : Nat) (text : List Char) :
    (r.captures count text).isSome = true ↔ ∃ e, Leads r ⟨.ofText text, []⟩ e := by
  rw [captures, Option.isSome_map, search_eq_head? hStart, List.isSome_head?, run_ne_nil_iff]

end Start

end Regex

end Scenarist
