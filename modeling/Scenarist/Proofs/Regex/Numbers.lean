import Scenarist.Proofs.Regex.Groups
import Scenarist.Proofs.Regex.Wrapped

/-!
# Numbers of groups

The groups of an expression are numbered from one in the order in which they open, and each gets its
place among the names when it opens.  So an expression that is read has no group without a place.

* `Numbered.readItem`: a step gives no number without a place among the names.
* `numbered_of_read`: nor does a run, and its groups are those of the expression.
-/

namespace Scenarist

namespace Regex

/-- The groups of the expression have numbers from one to `n`. -/
def UpTo (n : Nat) (r : Regex) : Prop := ∀ g ∈ r.groups, 0 < g.1 ∧ g.1 ≤ n

variable {n m : Nat}

theorem UpTo.mono {r : Regex} (h : UpTo n r) (hLe : n ≤ m) : UpTo m r :=
  fun g hg => ⟨(h g hg).1, (h g hg).2.trans hLe⟩

theorem upTo_append {gs hs : List (Nat × Regex)} (h : ∀ g ∈ gs, 0 < g.1 ∧ g.1 ≤ n)
    (h' : ∀ g ∈ hs, 0 < g.1 ∧ g.1 ≤ n) : ∀ g ∈ gs ++ hs, 0 < g.1 ∧ g.1 ≤ n :=
  fun g hg => (List.mem_append.mp hg).elim (h g) (h' g)

theorem upTo_sequence {rs : List Regex} (h : ∀ r ∈ rs, UpTo n r) : UpTo n (sequence rs) := by
  induction rs with
  | nil => exact fun g hg => absurd hg List.not_mem_nil
  | cons r rs ih =>
    obtain ⟨hFirst, hRest⟩ := List.forall_mem_cons.mp h
    cases rs with
    | nil => exact hFirst
    | cons s rs => exact upTo_append hFirst (ih hRest)

theorem upTo_choice {rs : List Regex} (h : ∀ r ∈ rs, UpTo n r) : UpTo n (choice rs) := by
  induction rs with
  | nil => exact fun g hg => absurd hg List.not_mem_nil
  | cons r rs ih =>
    obtain ⟨hFirst, hRest⟩ := List.forall_mem_cons.mp h
    cases rs with
    | nil => exact hFirst
    | cons s rs => exact upTo_append hFirst (ih hRest)

theorem upTo_upTo {greedy : Bool} {r : Regex} (h : UpTo n r) (k : Nat) :
    UpTo n (upTo greedy r k) := by
  induction k with
  | zero => exact fun g hg => absurd hg List.not_mem_nil
  | succ k ih =>
    cases k with
    | zero => exact h
    | succ k => exact upTo_append h ih

theorem upTo_repeated {greedy : Bool} {r : Regex} (h : UpTo n r) (least : Nat)
    (most : Option Nat) : UpTo n (repeated greedy least most r) := by
  have hTimes : ∀ k, ∀ s ∈ List.replicate k r, UpTo n s := fun k s hs =>
    List.eq_of_mem_replicate hs ▸ h
  have hBehind : ∀ k s, UpTo n s → UpTo n (sequence (List.replicate k r ++ [s])) := by
    intro k s hs
    exact upTo_sequence (List.forall_mem_append.mpr ⟨hTimes k, List.forall_mem_singleton.mpr hs⟩)
  unfold repeated
  split
  · exact h
  · exact hBehind _ _ h
  · split
    · exact upTo_sequence (hTimes _)
    · exact hBehind _ _ (upTo_upTo h _)

/-! ### Open groups -/

/-- An open group and the groups inside it have numbers from one to `n`. -/
structure OpenGroup.UpTo (n : Nat) (g : OpenGroup) : Prop where
  index : ∀ i ∈ g.index, 0 < i ∧ i ≤ n
  alternatives : ∀ r ∈ g.alternatives, Regex.UpTo n r
  items : ∀ r, some r ∈ g.items → Regex.UpTo n r

namespace OpenGroup.UpTo

variable {g : OpenGroup}

theorem mono (h : g.UpTo n) (hLe : n ≤ m) : g.UpTo m where
  index i hi := ⟨(h.index i hi).1, (h.index i hi).2.trans hLe⟩
  alternatives r hr := (h.alternatives r hr).mono hLe
  items r hr := (h.items r hr).mono hLe

theorem withItems (h : g.UpTo n) {items : List (Option Regex)}
    (hItems : ∀ r, some r ∈ items → Regex.UpTo n r) :
    OpenGroup.UpTo n { g with items := items } :=
  ⟨h.index, h.alternatives, hItems⟩

theorem add (h : g.UpTo n) {r : Regex} (hr : Regex.UpTo n r) : (g.add r).UpTo n := by
  refine h.withItems fun s hs => ?_
  rcases List.mem_cons.mp hs with hs | hs
  · exact Option.some.inj hs ▸ hr
  · exact h.items s hs

theorem current (h : g.UpTo n) : Regex.UpTo n g.current := by
  refine upTo_sequence fun r hr => ?_
  obtain ⟨item, hItem, rfl⟩ := List.mem_filterMap.mp hr
  exact h.items r (List.mem_reverse.mp hItem)

theorem bar (h : g.UpTo n) : g.bar.UpTo n where
  index := h.index
  alternatives := List.forall_mem_cons.mpr ⟨h.current, h.alternatives⟩
  items _ hr := absurd hr List.not_mem_nil

theorem close (h : g.UpTo n) : Regex.UpTo n g.close := by
  have hBody : Regex.UpTo n (choice (g.current :: g.alternatives).reverse) :=
    upTo_choice fun r hr => h.bar.alternatives r (List.mem_reverse.mp hr)
  unfold OpenGroup.close
  split
  · next i hIndex => exact List.forall_mem_cons.mpr ⟨h.index i hIndex, hBody⟩
  · exact hBody

end OpenGroup.UpTo

/-! ### Steps and runs -/

/-- All groups have a number with a place among the names. -/
def Progress.Numbered (p : Progress) : Prop := ∀ g ∈ p.inner :: p.outer, g.UpTo p.names.length

namespace Progress.Numbered

variable {p q : Progress} {s rest : List Char}

theorem stay (h : p.Numbered) {g : OpenGroup} (hg : g.UpTo p.names.length) {flags : Flags} :
    Progress.Numbered ⟨flags, g, p.outer, p.names⟩ :=
  List.forall_mem_cons.mpr ⟨hg, (List.forall_mem_cons.mp h).2⟩

theorem inner (h : p.Numbered) : p.inner.UpTo p.names.length := h _ List.mem_cons_self

theorem add (h : p.Numbered) {r : Regex} (hr : r.groups = []) : (p.add r).Numbered := by
  refine h.stay (h.inner.add fun g hg => ?_)
  rw [hr] at hg
  exact absurd hg List.not_mem_nil

theorem openNumbered (h : p.Numbered) (name : Option String) : (p.openNumbered name).Numbered := by
  refine List.forall_mem_cons.mpr ⟨⟨fun i hi => ?_, ?_, ?_⟩, fun g hg => ?_⟩
  · obtain rfl := Option.some.inj hi
    exact ⟨Nat.succ_pos _, Nat.le_refl _⟩
  · exact fun r hr => absurd hr List.not_mem_nil
  · exact fun r hr => absurd hr List.not_mem_nil
  · exact (h g hg).mono (Nat.le_succ _)

theorem openPlain (h : p.Numbered) (flags : Flags) : (p.openPlain flags).Numbered := by
  refine List.forall_mem_cons.mpr ⟨⟨?_, ?_, ?_⟩, h⟩
  · exact fun i hi => absurd hi (Option.not_mem_none i)
  · exact fun r hr => absurd hr List.not_mem_nil
  · exact fun r hr => absurd hr List.not_mem_nil

theorem readOpening (h : p.Numbered) (hRead : readOpening p s = .ok (q, rest)) : q.Numbered := by
  rcases readOpening_eq_ok_iff.mp hRead with ⟨name, after, -, -, rfl⟩ |
    ⟨flags, after, -, -, rfl⟩ | ⟨flags, after, last, -, -, -, -, -, rfl⟩ | ⟨-, -, rfl⟩
  · exact h.openNumbered _
  · exact h.openPlain flags
  · refine h.stay (h.inner.withItems fun r hr => ?_)
    rcases List.mem_cons.mp hr with hr | hr
    · cases hr
    · exact h.inner.items r hr
  · exact h.openNumbered none

theorem closeGroup (h : p.Numbered) (hClose : p.closeGroup = .ok q) : q.Numbered := by
  rcases p with ⟨flags, inner, _ | ⟨parent, outer⟩, names⟩
  · cases hClose
  · cases hClose
    obtain ⟨hInner, hOuter⟩ := List.forall_mem_cons.mp h
    obtain ⟨hParent, hOthers⟩ := List.forall_mem_cons.mp hOuter
    exact List.forall_mem_cons.mpr ⟨hParent.add hInner.close, hOthers⟩

theorem readRepeated (h : p.Numbered) {least : Nat} {most : Option Nat}
    (hRead : readRepeated p least most s = .ok (q, rest)) : q.Numbered := by
  obtain ⟨q', hLast, hEq⟩ := bind_eq_ok_iff.mp hRead
  cases hEq
  unfold Progress.repeatLast at hLast
  split at hLast
  · next r items hItems =>
    split_ifs at hLast
    cases hLast
    have hAll : ∀ s, some s ∈ some r :: items → UpTo p.names.length s := hItems ▸ h.inner.items
    refine h.stay (h.inner.withItems fun s hs => ?_)
    rcases List.mem_cons.mp hs with hs | hs
    · exact Option.some.inj hs ▸ upTo_repeated (hAll r List.mem_cons_self) _ _
    · exact hAll s (List.mem_cons_of_mem _ hs)
  · cases hLast

/-- **A step gives no number without a place among the names.** -/
theorem readItem (h : p.Numbered) {n : Nat} {c : Char}
    (hRead : readItem n p c s = .ok (q, rest)) : q.Numbered := by
  unfold Regex.readItem at hRead
  -- one case for each of the characters of `readItem`, in its order
  split at hRead
  · exact h.readOpening hRead
  · obtain ⟨q', hClose, hEq⟩ := bind_eq_ok_iff.mp hRead
    cases hEq
    exact h.closeGroup hClose
  · cases hRead
    exact h.stay h.inner.bar
  · obtain ⟨⟨found, rest'⟩, -, hEq⟩ := bind_eq_ok_iff.mp hRead
    cases hEq
    exact h.add rfl
  · exact h.readRepeated hRead
  · exact h.readRepeated hRead
  · exact h.readRepeated hRead
  · obtain ⟨⟨least, most, rest'⟩, -, hEq⟩ := bind_eq_ok_iff.mp hRead
    exact h.readRepeated hEq
  · obtain ⟨found, hAny, hEq⟩ := bind_eq_ok_iff.mp hRead
    cases hEq
    refine h.add ?_
    unfold anyChar at hAny
    split_ifs at hAny <;> cases hAny <;> rfl
  · cases hRead
    exact h.add rfl
  · cases hRead
    exact h.add rfl
  · obtain ⟨⟨item, rest'⟩, -, hEq⟩ := bind_eq_ok_iff.mp hRead
    cases item <;> cases hEq <;> exact h.add rfl
  · cases hRead
    exact h.add rfl

end Progress.Numbered

theorem numbered_of_readItems {p q : Progress} {s : List Char} (h : p.Numbered)
    (hRead : readItems n p s = .ok q) : q.Numbered := by
  induction n generalizing p s with
  | zero => cases hRead
  | succ n ih =>
    rw [readItems_succ] at hRead
    split at hRead
    · obtain rfl := Except.ok.inj hRead
      exact h
    · obtain ⟨⟨p', rest⟩, hItem, hRest⟩ := bind_eq_ok_iff.mp hRead
      exact ih (h.readItem hItem) hRest

/-- **Every group of an expression that is read has a place among the names.** -/
theorem upTo_of_read {s : List Char} {e : Expression} (h : Expression.read s = .ok e) :
    UpTo e.names.length e.body := by
  obtain ⟨q, hItems, -, -, rfl⟩ := read_eq_ok_iff.mp h
  have hStart : Progress.start.Numbered := by
    refine List.forall_mem_singleton.mpr ⟨?_, ?_, ?_⟩
    · exact fun i hi => absurd hi (Option.not_mem_none i)
    · exact fun r hr => absurd hr List.not_mem_nil
    · exact fun r hr => absurd hr List.not_mem_nil
  show UpTo q.names.reverse.length q.inner.close
  rw [List.length_reverse]
  exact (numbered_of_readItems hStart hItems).inner.close

end Regex

end Scenarist
