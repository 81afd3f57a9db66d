import Mathlib.Data.List.Forall2

/-!
# Computations that may refuse

A computation that may refuse gives its result when all of its steps do.

* `bind_eq_ok_iff`, `map_eq_ok_iff`, `mapError_eq_ok_iff`: when one step after another gives a
  result.
* `mapM_eq_ok_iff`, `mapM_eq_error_iff`: a traversal either gives a result for every element or the
  error of the first element that has one.
-/

namespace Scenarist

variable {α β ε : Type}

@[simp] theorem ok_bind (a : α) (f : α → Except ε β) : (Except.ok a >>= f) = f a := rfl

theorem bind_eq_ok_iff {x : Except ε α} {f : α → Except ε β} {b : β} :
    x >>= f = .ok b ↔ ∃ a, x = .ok a ∧ f a = .ok b := by
  cases x with
  | error e => exact ⟨fun h => (by cases h), fun ⟨_, h, _⟩ => (by cases h)⟩
  | ok a => exact ⟨fun h => ⟨a, rfl, h⟩, fun ⟨_, h, hf⟩ => (by cases h; exact hf)⟩

theorem map_eq_ok_iff {x : Except ε α} {f : α → β} {b : β} :
    f <$> x = .ok b ↔ ∃ a, x = .ok a ∧ f a = b := by
  cases x with
  | error e => exact ⟨fun h => (by cases h), fun ⟨_, h, _⟩ => (by cases h)⟩
  | ok a =>
    exact ⟨fun h => ⟨a, rfl, Except.ok.inj h⟩, fun ⟨_, h, hf⟩ => (by cases h; rw [← hf]; rfl)⟩

theorem mapError_eq_ok_iff {ε' : Type} {x : Except ε α} {f : ε → ε'} {a : α} :
    x.mapError f = .ok a ↔ x = .ok a := by
  cases x with
  | error e => exact ⟨fun h => (by cases h), fun h => (by cases h)⟩
  | ok b => exact ⟨fun h => congrArg Except.ok (Except.ok.inj h),
      fun h => congrArg Except.ok (Except.ok.inj h)⟩

theorem mapM_eq_ok_iff {f : α → Except ε β} {l : List α} {values : List β} :
    l.mapM f = .ok values ↔ List.Forall₂ (fun x v => f x = .ok v) l values := by
  induction l generalizing values with
  | nil =>
    rw [List.mapM_nil, List.forall₂_nil_left_iff]
    exact ⟨fun h => (Except.ok.inj h).symm, fun h => h ▸ rfl⟩
  | cons x rest ih =>
    rw [List.mapM_cons, List.forall₂_cons_left_iff]
    cases hx : f x with
    | error e => exact ⟨fun h => (by cases h), fun ⟨_, _, h, _⟩ => (by cases h)⟩
    | ok v =>
      cases hRest : rest.mapM f with
      | error e =>
        refine ⟨fun h => (by cases h), ?_⟩
        rintro ⟨_, _, _, h, _⟩
        rw [← ih, hRest] at h
        cases h
      | ok vs =>
        constructor
        · intro h
          cases h
          exact ⟨v, vs, rfl, ih.mp hRest, rfl⟩
        · rintro ⟨v', vs', hv, hvs, rfl⟩
          cases hv
          rw [← ih, hRest] at hvs
          cases hvs
          rfl

theorem mapM_eq_error_iff {f : α → Except ε β} {l : List α} {e : ε} :
    l.mapM f = .error e ↔
      ∃ front x back, l = front ++ x :: back ∧ (∀ y ∈ front, ∃ v, f y = .ok v) ∧
        f x = .error e := by
  induction l with
  | nil =>
    refine ⟨fun h => (by cases h), ?_⟩
    rintro ⟨front, x, back, h, _⟩
    exact absurd h (by simp)
  | cons x rest ih =>
    rw [List.mapM_cons]
    cases hx : f x with
    | error e' =>
      constructor
      · intro h
        cases h
        exact ⟨[], x, rest, rfl, fun _ h => absurd h (by simp), hx⟩
      · rintro ⟨front, y, back, h, hFront, hy⟩
        cases front with
        | nil =>
          obtain ⟨rfl, rfl⟩ := List.cons.inj h
          rw [hx] at hy
          cases hy
          rfl
        | cons z front =>
          obtain ⟨rfl, rfl⟩ := List.cons.inj h
          obtain ⟨v, hv⟩ := hFront x (by simp)
          rw [hx] at hv
          cases hv
    | ok v =>
      constructor
      · intro h
        cases hRest : rest.mapM f with
        | ok vs => rw [hRest] at h; cases h
        | error e' =>
          rw [hRest] at h
          cases h
          obtain ⟨front, y, back, rfl, hFront, hy⟩ := ih.mp hRest
          refine ⟨x :: front, y, back, rfl, fun z hz => ?_, hy⟩
          rcases List.mem_cons.mp hz with rfl | hz
          · exact ⟨v, hx⟩
          · exact hFront z hz
      · rintro ⟨front, y, back, h, hFront, hy⟩
        cases front with
        | nil =>
          obtain ⟨rfl, rfl⟩ := List.cons.inj h
          rw [hx] at hy
          cases hy
        | cons z front =>
          obtain ⟨rfl, rfl⟩ := List.cons.inj h
          rw [ih.mpr ⟨front, y, back, rfl, fun z hz => hFront z (by simp [hz]), hy⟩]
          rfl

end Scenarist
